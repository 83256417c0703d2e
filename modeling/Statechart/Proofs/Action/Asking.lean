import Statechart.Action.Block
import Statechart.Action.Stock
import Statechart.Proofs.Arena.Contents
import Statechart.Proofs.Expr.Caching

/-!
# Content asks the evaluator

Content sees the two functions of an evaluator, yet all it does with them is to ask for values and
conditions, finitely often and each time on data that it has at that moment.  `Asks` says so:
there is a program of questions, one for all evaluators, that comes to the same as the content
with any of them.

Built-in actions ask (`Action.BuiltWith.asks`).  Actions of a host run code of their own, and that
those of a registry do no more than ask is an assumption on the host (`Registry.Asks`).
-/

namespace Statechart

open Statechart.Expr (Inquiry)

variable {α β γ : Type}

/-- What `f` comes to with an evaluator is found out by asking it.  A result that carries the
evaluator itself is found up to that; `put` puts the evaluator into it. -/
def Consults (put : Evaluator → β → β) (f : Evaluator → β) : Prop :=
  ∃ q : Inquiry β, ∀ evaluate, f evaluate = put evaluate (q.answered evaluate)

/-- What `f` comes to with an evaluator is found out by asking it. -/
abbrev Asks (f : Evaluator → α) : Prop := Consults (fun _ a => a) f

variable {put : Evaluator → β → β} {put' : Evaluator → γ → γ} {f : Evaluator → β}

/-- Nothing is asked. -/
theorem Consults.pure (b : β) (h : ∀ evaluate, f evaluate = put evaluate b) : Consults put f :=
  ⟨.done b, h⟩

theorem Consults.congr {f' : Evaluator → β} (hf : Consults put f)
    (h : ∀ evaluate, f' evaluate = f evaluate) : Consults put f' :=
  funext h ▸ hf

/-- What goes on after `f` has to ask only from those results on that `f` can have. -/
theorem Consults.bind (hf : Consults put f) (g : Evaluator → β → γ)
    (hg : ∀ b, (∃ evaluate, f evaluate = put evaluate b) →
      Consults put' fun evaluate => g evaluate (put evaluate b)) :
    Consults put' fun evaluate => g evaluate (f evaluate) := by
  obtain ⟨q, hq⟩ := hf
  have hnext : ∀ b, ∃ r : Inquiry γ, (∃ evaluate, f evaluate = put evaluate b) →
      ∀ evaluate, g evaluate (put evaluate b) = put' evaluate (r.answered evaluate) := by
    intro b
    by_cases h : ∃ evaluate, f evaluate = put evaluate b
    · obtain ⟨r, hr⟩ := hg b h
      exact ⟨r, fun _ => hr⟩
    · exact ⟨.done (g .standard (f .standard)), fun h' => absurd h' h⟩
  choose r hr using hnext
  refine ⟨q.bind r, fun evaluate => ?_⟩
  rw [Expr.Inquiry.answered_bind, ← hr _ ⟨evaluate, hq evaluate⟩, ← hq]

theorem Asks.map {f : Evaluator → α} (hf : Asks f) (g : α → β) :
    Asks fun evaluate => g (f evaluate) :=
  hf.bind (fun _ a => g a) fun a _ => .pure (g a) fun _ => rfl

/-- Where the evaluator makes no difference nothing is asked. -/
theorem asks_of_eq {f : Evaluator → α} (h : ∀ evaluate, f evaluate = f .standard) : Asks f :=
  .pure (f .standard) h

theorem asks_value (text : String) (data : DataModel) : Asks fun evaluate => evaluate text data :=
  ⟨.ask text data .done, fun _ => rfl⟩

theorem asks_holds (cond : String) (data : DataModel) :
    Asks fun evaluate => evaluate.holds cond data :=
  ⟨.test cond data .done, fun _ => rfl⟩

/-- An evaluator that is asked for one value only may be replaced by its answer. -/
theorem asks_of_value (text : String) (data : DataModel)
    (h : ∀ evaluate, f evaluate = f (.ofValue fun _ _ => evaluate text data)) : Asks f :=
  funext h ▸ (asks_value text data).map fun result => f (.ofValue fun _ _ => result)

/-- So it is with one condition. -/
theorem asks_of_holds (cond : String) (data : DataModel)
    (h : ∀ evaluate, f evaluate =
      f ⟨fun _ _ => .ok .null, fun _ _ => evaluate.holds cond data⟩) : Asks f :=
  funext h ▸ (asks_holds cond data).map fun result =>
    f ⟨fun _ _ => .ok .null, fun _ _ => result⟩

/-! ## Content -/

/-- Actions of this type do no more with an evaluator than to ask it. -/
def ActionType.Asks (type : ActionType) : Prop :=
  ∀ attributes run, type.make attributes = some run → ∀ data state,
    Statechart.Asks fun evaluate => run ⟨data, evaluate, state⟩

/-- No registered action does more with an evaluator than to ask it. -/
def Registry.Asks (registry : Registry) : Prop :=
  ∀ space action type, registry.resolve space action = some type → type.Asks

theorem Registry.asks_empty : Registry.empty.Asks := by
  intro space action type h
  cases h

theorem Registry.Asks.insert {registry : Registry} (h : registry.Asks) {type : ActionType}
    (htype : type.Asks) (space action : String) : (registry.insert space action type).Asks := by
  intro other asked found hfound
  by_cases hspace : space = other
  · subst hspace
    by_cases haction : action = asked
    · subst haction
      rw [resolve_insert_self] at hfound
      exact Option.some.inj hfound ▸ htype
    · rw [resolve_insert_of_ne haction] at hfound
      exact h space asked found hfound
  · rw [resolve_insert_of_space_ne hspace] at hfound
    exact h other asked found hfound

namespace Outcome

/-- One piece of content after another. -/
theorem asks_andThen {first : Evaluator → Outcome} (hfirst : Statechart.Asks first)
    {next : Evaluator → DataModel → Outcome}
    (hnext : ∀ data, Statechart.Asks fun evaluate => next evaluate data) :
    Statechart.Asks fun evaluate => (first evaluate).andThen (next evaluate) := by
  refine hfirst.bind (fun evaluate outcome => outcome.andThen (next evaluate)) fun outcome _ => ?_
  cases hfailure : outcome.failure with
  | some error => exact .pure outcome fun evaluate => andThen_of_failure hfailure _
  | none =>
      have hlater := (hnext outcome.data).map fun later => outcome.andThen fun _ => later
      simpa only [andThen, hfailure] using hlater

end Outcome

namespace Action

variable {registry : Registry}

theorem asks_runBlock {actions : List Action}
    (h : ∀ action ∈ actions, ∀ data state,
      Statechart.Asks fun evaluate => run ⟨data, evaluate, state⟩ action)
    (data : DataModel) (state : String) :
    Statechart.Asks fun evaluate => runBlock ⟨data, evaluate, state⟩ actions := by
  induction actions generalizing data with
  | nil => exact asks_of_eq fun _ => rfl
  | cons action rest ih =>
      obtain ⟨haction, hrest⟩ := List.forall_mem_cons.1 h
      exact Outcome.asks_andThen (haction data state) (ih hrest)

/-- What a branch comes to once its condition has an answer. -/
def branched (view : View) (actions otherwise : List Action) :
    Except ExpressionError Bool → Outcome
  | .error e => .misvalued view.data e
  | .ok true => runBlock view actions
  | .ok false => runBlock view otherwise

/-- Content from a registry that asks asks itself. -/
theorem BuiltWith.asks {action : Action} (h : action.BuiltWith registry)
    (hregistry : registry.Asks) (data : DataModel) (state : String) :
    Statechart.Asks fun evaluate => run ⟨data, evaluate, state⟩ action := by
  induction h generalizing data state with
  | log label expr =>
      cases expr with
      | none => exact asks_of_eq fun _ => rfl
      | some expr => exact asks_of_value expr data fun _ => rfl
  | assign location expr => exact asks_of_value expr data fun _ => rfl
  | raise event => exact asks_of_eq fun _ => rfl
  | send event expr =>
      cases expr with
      | none => exact asks_of_eq fun _ => rfl
      | some expr => exact asks_of_value expr data fun _ => rfl
  | exitReport expr names =>
      cases expr with
      | none => exact asks_of_eq fun _ => rfl
      | some expr => exact asks_of_value expr data fun _ => rfl
  | @branch cond actions otherwise _ _ hactions hotherwise =>
      refine (asks_holds cond data).bind (fun evaluate =>
        branched ⟨data, evaluate, state⟩ actions otherwise) fun result _ => ?_
      rcases result with e | _ | _
      · exact asks_of_eq fun _ => rfl
      · exact asks_runBlock hotherwise data state
      · exact asks_runBlock hactions data state
  | custom hresolve hmake => exact hregistry _ _ _ hresolve _ _ hmake data state

end Action

/-! ## Stock actions -/

namespace Stock

theorem asks_runStep (word : String) (args : List Value) (data : DataModel) (state : String) :
    Statechart.Asks fun evaluate => runStep ⟨data, evaluate, state⟩ word args := by
  -- a step asks at most for its first argument, and only one kind asks for a condition
  by_cases hcond : word = "cond"
  · subst hcond
    exact asks_of_holds (argText args 0) data fun evaluate => rfl
  · refine asks_of_value (argText args 0) data fun evaluate => ?_
    unfold runStep
    split <;> first | rfl | exact absurd rfl hcond

theorem asks_runSteps (steps : List (List Value)) (data : DataModel) (state : String) :
    Statechart.Asks fun evaluate => runSteps ⟨data, evaluate, state⟩ steps := by
  induction steps generalizing data with
  | nil => exact asks_of_eq fun _ => rfl
  | cons step rest ih =>
      exact Outcome.asks_andThen (asks_runStep (argText step 0) (step.drop 1) data state) ih

theorem asks_hello : hello.Asks := by
  intro attributes run hrun data state
  simp only [hello] at hrun
  split at hrun
  · obtain rfl := Option.some.inj hrun
    exact asks_of_eq fun _ => rfl
  · obtain ⟨text, -, rfl⟩ := Option.map_eq_some_iff.1 hrun
    exact asks_of_eq fun _ => rfl

theorem asks_ping : ping.Asks := by
  intro attributes run hrun data state
  simp only [ping] at hrun
  split at hrun
  · obtain rfl := Option.some.inj hrun
    exact asks_of_eq fun _ => rfl
  · cases hrun

theorem asks_greet : greet.Asks := by
  intro attributes run hrun data state
  obtain ⟨value, -, rfl⟩ := Option.map_eq_some_iff.1 hrun
  exact asks_of_eq fun _ => rfl

theorem asks_explode : explode.Asks := by
  intro attributes run hrun data state
  simp only [explode] at hrun
  split at hrun
  · obtain rfl := Option.some.inj hrun
    exact asks_of_eq fun _ => rfl
  · cases hrun

theorem asks_script : script.Asks := by
  intro attributes run hrun data state
  simp only [script] at hrun
  split at hrun
  · obtain ⟨steps, -, rfl⟩ := Option.map_eq_some_iff.1 hrun
    exact asks_runSteps steps data state
  · cases hrun

/-- The stock actions, of which one asks for values and conditions, do no more than ask. -/
theorem asks_registry (space : String) : (registry space).Asks := by
  have hhello := Registry.asks_empty.insert asks_hello space "hello"
  have hping := hhello.insert asks_ping space "ping"
  have hgreet := hping.insert asks_greet space "greet"
  have hexplode := hgreet.insert asks_explode space "explode"
  exact hexplode.insert asks_script space "script"

end Stock
end Statechart
