import Statechart.Action.Stock
import Statechart.Proofs.Arena.Contents
import Statechart.Proofs.Session.Run

/-!
# Declared variables stay declared

No operation of the data model takes a variable away, and so neither does any
content that the engine runs itself.  Actions of a host run code of their own.
If those of a registry keep a variable (`Registry.Keeps`), then every model that
is built with it keeps the variable (`keeps_of_build`), and once it is declared
it is declared in all later sessions of a run (`Moves.declares`).

The values of variables may change at any time.
-/

namespace Statechart

/-- Actions of this type never take a variable away: they change the data model
by declaring and assigning only. -/
def ActionType.Keeps (type : ActionType) (name : String) : Prop :=
  ∀ attributes run, type.make attributes = some run →
    ∀ view : View, view.data.isDeclared name → (run view).data.isDeclared name

/-- No registered action takes a variable away. -/
def Registry.Keeps (registry : Registry) (name : String) : Prop :=
  ∀ space action type, registry.resolve space action = some type → type.Keeps name

variable {name : String}

theorem Registry.keeps_empty : Registry.empty.Keeps name := by
  intro space action type h
  cases h

theorem Registry.Keeps.insert {registry : Registry} (h : registry.Keeps name)
    {type : ActionType} (htype : type.Keeps name) (space action : String) :
    (registry.insert space action type).Keeps name := by
  intro other asked found hfound
  by_cases hspace : space = other
  · subst hspace
    by_cases haction : action = asked
    · subst haction
      rw [resolve_insert_self] at hfound
      obtain rfl := Option.some.inj hfound
      exact htype
    · rw [resolve_insert_of_ne haction] at hfound
      exact h space asked found hfound
  · rw [resolve_insert_of_space_ne hspace] at hfound
    exact h other asked found hfound

/-! ## Content -/

namespace Action

/-- An action leaves a declared variable declared, whether it succeeds or fails. -/
def Keeps (name : String) (action : Action) : Prop :=
  ∀ view : View, view.data.isDeclared name → (run view action).data.isDeclared name

/-- A block of actions leaves a declared variable declared. -/
def KeepsAll (name : String) (actions : List Action) : Prop :=
  ∀ view : View, view.data.isDeclared name → (runBlock view actions).data.isDeclared name

theorem keeps_log (label expr : Option String) : Keeps name (.log label expr) := by
  intro view h
  cases expr with
  | none => exact h
  | some expr =>
      show (runLog view label (some expr)).data.isDeclared name
      unfold runLog
      dsimp only
      split
      · exact h
      · exact h

theorem keeps_assign (location expr : String) : Keeps name (.assign location expr) := by
  intro view h
  show (runAssign view location expr).data.isDeclared name
  unfold runAssign
  split
  · exact h
  · split
    · exact h
    · next hassign => exact DataModel.isDeclared_assign h hassign

theorem keeps_raise (event : String) : Keeps name (.raise event) := fun _ h => h

theorem keeps_send (event : String) (expr : Option String) : Keeps name (.send event expr) := by
  intro view h
  cases expr with
  | none => exact h
  | some expr =>
      show (runSend view event (some expr)).data.isDeclared name
      unfold runSend
      dsimp only
      split
      · exact h
      · exact h

theorem keeps_exitReport (expr : Option String) (names : List String) :
    Keeps name (.exitReport expr names) := by
  intro view h
  show (runExitReport view expr names).data.isDeclared name
  unfold runExitReport
  split
  · exact h
  · exact h

theorem keeps_branch {cond : String} {actions otherwise : List Action}
    (hactions : KeepsAll name actions) (hotherwise : KeepsAll name otherwise) :
    Keeps name (.branch cond actions otherwise) := by
  intro view h
  unfold run
  split
  · exact h
  · exact hactions view h
  · exact hotherwise view h

theorem keepsAll_nil : KeepsAll name [] := fun _ h => h

theorem keepsAll_cons {action : Action} {rest : List Action} (haction : Keeps name action)
    (hrest : KeepsAll name rest) : KeepsAll name (action :: rest) := by
  intro view h
  have hfirst := haction view h
  unfold runBlock Outcome.andThen
  split
  · exact hfirst
  · exact hrest (view.on (run view action).data) hfirst

end Action

namespace Action

variable {registry : Registry}

theorem keepsAll_of_forall {actions : List Action} (h : ∀ action ∈ actions, Keeps name action) :
    KeepsAll name actions := by
  induction actions with
  | nil => exact keepsAll_nil
  | cons action rest ih =>
      obtain ⟨haction, hrest⟩ := List.forall_mem_cons.1 h
      exact keepsAll_cons haction (ih hrest)

/-- An action keeps what the registry that it comes from keeps. -/
theorem BuiltWith.keeps {action : Action} (h : action.BuiltWith registry)
    (hregistry : registry.Keeps name) : Keeps name action := by
  induction h with
  | log label expr => exact keeps_log label expr
  | assign location expr => exact keeps_assign location expr
  | raise event => exact keeps_raise event
  | send event expr => exact keeps_send event expr
  | exitReport expr names => exact keeps_exitReport expr names
  | branch cond _ _ hactions hotherwise =>
      exact keeps_branch (keepsAll_of_forall hactions) (keepsAll_of_forall hotherwise)
  | custom hresolve hmake => exact hregistry _ _ _ hresolve _ _ hmake

theorem keepsAll_of_builtWith {actions : List Action}
    (h : ∀ action ∈ actions, action.BuiltWith registry) (hregistry : registry.Keeps name) :
    KeepsAll name actions :=
  keepsAll_of_forall fun action hmem => (h action hmem).keeps hregistry

end Action

/-! ## Stock actions -/

namespace Stock

theorem keeps_runStep {view : View} (h : view.data.isDeclared name) (word : String)
    (args : List Value) : (runStep view word args).data.isDeclared name := by
  unfold runStep
  dsimp only
  split
  -- the words that change the data; the remaining ones leave it alone
  case h_4 => exact DataModel.isDeclared_declare h _ _
  case h_5 =>
    split
    · exact h
    · next hassign => exact DataModel.isDeclared_assign h hassign
  case h_6 =>
    split
    · exact h
    · exact DataModel.isDeclared_declare h _ _
  case h_7 =>
    split
    · exact h
    · exact DataModel.isDeclared_declare h _ _
  case h_8 => exact DataModel.isDeclared_declare h _ _
  case h_9 => exact DataModel.isDeclared_declare h _ _
  all_goals exact h

theorem keeps_runSteps {view : View} (h : view.data.isDeclared name)
    (steps : List (List Value)) : (runSteps view steps).data.isDeclared name := by
  induction steps generalizing view with
  | nil => exact h
  | cons step rest ih =>
      have hfirst := keeps_runStep h (argText step 0) (step.drop 1)
      unfold runSteps Outcome.andThen
      split
      · exact hfirst
      · exact ih hfirst

theorem keeps_hello : hello.Keeps name := by
  intro attributes run hrun view h
  simp only [hello] at hrun
  split at hrun
  · obtain rfl := Option.some.inj hrun
    exact h
  · obtain ⟨text, -, rfl⟩ := Option.map_eq_some_iff.1 hrun
    exact h

theorem keeps_ping : ping.Keeps name := by
  intro attributes run hrun view h
  simp only [ping] at hrun
  split at hrun
  · obtain rfl := Option.some.inj hrun
    exact h
  · cases hrun

theorem keeps_greet : greet.Keeps name := by
  intro attributes run hrun view h
  obtain ⟨value, -, rfl⟩ := Option.map_eq_some_iff.1 hrun
  dsimp only
  split
  · exact h
  · next hassign => exact DataModel.isDeclared_assign h hassign

theorem keeps_explode : explode.Keeps name := by
  intro attributes run hrun view h
  simp only [explode] at hrun
  split at hrun
  · obtain rfl := Option.some.inj hrun
    exact h
  · cases hrun

theorem keeps_script : script.Keeps name := by
  intro attributes run hrun view h
  simp only [script] at hrun
  split at hrun
  · obtain ⟨steps, -, rfl⟩ := Option.map_eq_some_iff.1 hrun
    exact keeps_runSteps h steps
  · cases hrun

/-- The stock actions, of which one can do all that actions may do, keep every
variable. -/
theorem keeps_registry (space : String) : (registry space).Keeps name := by
  have hempty : Registry.empty.Keeps name := Registry.keeps_empty
  have hhello := hempty.insert keeps_hello space "hello"
  have hping := hhello.insert keeps_ping space "ping"
  have hgreet := hping.insert keeps_greet space "greet"
  have hexplode := hgreet.insert keeps_explode space "explode"
  exact hexplode.insert keeps_script space "script"

end Stock

/-! ## Models -/

/-- No content of a model takes a variable away. -/
structure Arena.Keeps (arena : Arena) (name : String) : Prop where
  onEntry : ∀ s, Action.KeepsAll name (arena.state s).onEntry
  onExit : ∀ s, Action.KeepsAll name (arena.state s).onExit
  transition : ∀ s, ∀ t ∈ (arena.state s).transitions, Action.KeepsAll name t.actions

theorem Arena.Keeps.actions {arena : Arena} (h : arena.Keeps name) (t : TransitionRef) :
    Action.KeepsAll name (arena.transition t).actions := by
  unfold Arena.transition
  cases hget : (arena.state t.source).transitions[t.position]? with
  | none => exact Action.keepsAll_nil
  | some transition => exact h.transition t.source transition (List.mem_of_getElem? hget)

/-- A model keeps what the registry that it is built with keeps. -/
theorem Model.keeps_of_build {registry : Registry} (hregistry : registry.Keeps name)
    {doc : Document} {model : Model} (hbuild : build doc registry = .ok model) :
    model.arena.Keeps name where
  onEntry s := Action.keepsAll_of_builtWith ((builtWith_of_build hbuild).onEntry s) hregistry
  onExit s := Action.keepsAll_of_builtWith ((builtWith_of_build hbuild).onExit s) hregistry
  transition s t ht :=
    Action.keepsAll_of_builtWith ((builtWith_of_build hbuild).transition s t ht) hregistry

/-! ## Sessions -/

namespace Session

/-- A variable is declared, and no content of the model takes it away. -/
structure Declares (s : Session) (name : String) : Prop where
  keeps : s.arena.Keeps name
  declared : s.data.isDeclared name

variable {s r : Session}

/-- What leaves the model and the data alone leaves the variable declared. -/
theorem Declares.of_data_eq (h : s.Declares name) (hmodel : r.model = s.model)
    (hdata : r.data = s.data) : r.Declares name := by
  have harena : r.arena = s.arena := congrArg Model.arena hmodel
  exact ⟨harena ▸ h.keeps, hdata ▸ h.declared⟩

theorem Declares.of_sameView (h : s.Declares name) (hview : SameView s r) : r.Declares name :=
  h.of_data_eq hview.model hview.data

theorem Declares.setEvent (h : s.Declares name) (event : Event) :
    (s.setEvent event).Declares name :=
  ⟨h.keeps, DataModel.isDeclared_declare h.declared _ _⟩

theorem Declares.send (h : s.Declares name) (event : Event) : (s.send event).Declares name :=
  ⟨h.keeps, h.declared⟩

theorem Declares.foldl {α : Type} {step : Session → α → Session}
    (hstep : ∀ s item, Declares s name → (step s item).Declares name) (items : List α)
    (h : s.Declares name) : (items.foldl step s).Declares name := by
  induction items generalizing s with
  | nil => exact h
  | cons item rest ih => exact ih (hstep s item h)

theorem Declares.absorb (h : s.Declares name) {outcome : Outcome}
    (hdata : outcome.data.isDeclared name) : (s.absorb outcome).Declares name := by
  have htaken : Declares { s with
      data := outcome.data
      reports := s.reports.pushAll outcome.reports
      output := s.output ++ outcome.output
      completion := outcome.completion.or s.completion } name := ⟨h.keeps, hdata⟩
  have hraised := htaken.foldl (fun _ event h => h.of_sameView (sameView_raise event))
    outcome.raised
  exact hraised.foldl (fun _ event h => h.send event) outcome.sent

theorem Declares.runContent (h : s.Declares name) (block : Block) (state : Nat)
    {actions : List Action} (hactions : Action.KeepsAll name actions) :
    (s.runContent block state actions).Declares name := by
  unfold Session.runContent
  split
  · exact h
  have hnote := h.of_sameView (sameView_note (.ran block s.active))
  dsimp only
  split
  · exact hnote
  have habsorb := hnote.absorb (hactions ⟨s.data, s.evaluate, (s.arena.state state).id⟩ h.declared)
  split
  · exact habsorb
  · exact habsorb.of_sameView
      ((sameView_note _).trans ((sameView_report _).trans (sameView_fail _ _)))

theorem Declares.enteredFinal (h : s.Declares name) (parent : Nat) :
    (s.enteredFinal parent).Declares name := by
  unfold Session.enteredFinal
  split
  · exact h.of_data_eq rfl rfl
  · have hfirst := h.of_sameView (sameView_complete parent)
    dsimp only
    split
    · exact hfirst
    · split
      · exact hfirst.of_sameView (sameView_complete _)
      · exact hfirst

theorem Declares.enter (h : s.Declares name) (i : Nat) : (s.enter i).Declares name := by
  unfold Session.enter
  split
  · exact h
  have hinsert : Declares ({ s with active := s.active.insert i }.note (.entered i)) name :=
    h.of_data_eq rfl rfl
  have hcontent := hinsert.runContent (.onEntry i) i (h.keeps.onEntry i)
  dsimp only
  split
  · split
    · exact hcontent
    · exact hcontent.enteredFinal _
  · exact hcontent

theorem Declares.enterAll (h : s.Declares name) (states : StateSet) :
    (s.enterAll states).Declares name :=
  h.foldl (fun _ i h => h.enter i) states

theorem Declares.exit (h : s.Declares name) (i : Nat) : (s.exit i).Declares name :=
  (h.runContent (.onExit i) i (h.keeps.onExit i)).of_data_eq rfl rfl

theorem Declares.act (h : s.Declares name) (t : TransitionRef) : (s.act t).Declares name :=
  h.runContent (.onTransition t) t.source (h.keeps.actions t)

theorem Declares.microstep (h : s.Declares name) (ts : List TransitionRef) :
    (s.microstep ts).Declares name := by
  have hnote := h.of_sameView (sameView_note (.stepped ts))
  have hexits := hnote.foldl (fun _ i h => h.exit i) (s.arena.exitSets s.active ts).reverse
  have hacts := hexits.foldl (fun _ t h => h.act t) ts
  exact hacts.enterAll _

theorem Move.declares (hmove : Move s r) (h : s.Declares name) : r.Declares name := by
  cases hmove with
  | begin _ =>
      have hrunning : Declares { s with phase := .running, failedGuards := [] } name :=
        ⟨h.keeps, h.declared⟩
      exact hrunning.enterAll _
  | receive event _ =>
      have hcleared : Declares { s with failedGuards := [] } name := ⟨h.keeps, h.declared⟩
      exact hcleared.setEvent event
  | dequeue _ hdequeue =>
      have hrest := h.of_data_eq (sameStates_dequeue hdequeue).model (data_dequeue hdequeue)
      exact hrest.setEvent _
  | select event _ => exact h.of_sameView (sameView_select event)
  | step event _ => exact (h.of_sameView (sameView_select event)).microstep _
  | restore v _ => exact ⟨h.keeps, DataModel.isDeclared_declare h.declared _ v⟩
  | abort _ => exact h.of_data_eq rfl rfl
  | halt _ => exact h.of_data_eq rfl rfl
  | finish _ _ => exact h.of_data_eq rfl rfl
  | ignore event _ => exact h.of_sameView (sameView_report _)

/-- A declared variable stays declared through a run. -/
theorem Moves.declares (hmoves : Moves s r) (h : s.Declares name) : r.Declares name := by
  induction hmoves with
  | refl => exact h
  | tail _ hmove ih => exact hmove.declares ih

end Session
end Statechart
