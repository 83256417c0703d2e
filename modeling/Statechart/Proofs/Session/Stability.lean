import Statechart.Proofs.Session.Coherence
import Statechart.Proofs.Session.Declared

/-!
# Stability

A call that succeeds and leaves the session running has settled it: both queues
are empty and no transition without an event is enabled in any active state.

There are two ways for a call to end like this.  Either the loop of the
macrostep ends, after a selection without an event that found nothing and with
nothing left in the queues (`settled_settle`).  Or the submitted event enables
nothing and the loop is not entered at all.  Then nothing was queued and the
data model is as it was before, because the variable of the event gets its old
value back (`sameView_forget`).  For this the variable has to be declared, and
it is, from the beginning, as long as the actions of the host do not take it
away.  If one does, the event leaves the variable behind with the value `null`,
and a guard that asks for it may hold now (`not_quiet_after_success`).

After a call that fails nothing of this holds.
-/

namespace Statechart
namespace Session

variable {s r : Session}

/-- No transition without an event is enabled in an active state. -/
def Quiet (s : Session) : Prop :=
  ∀ i ∈ s.active, ∀ t ∈ (s.arena.state i).transitions, t.event = none → ¬ s.GuardTrue t.cond

/-- Nothing is left to do in a macrostep. -/
structure Settled (s : Session) : Prop where
  internal : s.internal = []
  derived : s.derived = []
  quiet : s.Quiet

/-- All of some calls succeed, one after the other. -/
def Succeeds (s : Session) : List Call → Prop
  | [] => True
  | c :: rest => (s.call c).1 = none ∧ (s.call c).2.Succeeds rest

theorem SameView.quiet (h : SameView s r) (hs : s.Quiet) : r.Quiet := by
  intro i hi t ht hevent
  rw [h.toSameRun.arena] at ht
  rw [h.active] at hi
  rw [h.guardTrue_iff]
  exact hs i hi t ht hevent

/-- If nothing is selected without an event, no such transition is enabled: a
leaf below its source would have chosen something, and of what is chosen
something is selected. -/
theorem Coherent.quiet (h : Coherent s) (hs : s.phase ≠ .uninitialized)
    (hnil : (s.select none).1 = []) : s.Quiet := by
  intro i hi t ht hevent hguard
  obtain ⟨position, hget⟩ := List.getElem?_of_mem ht
  have henabled : s.Enabled none ⟨i, position⟩ :=
    ⟨t, hget, by simp [Transition.fits, hevent], hguard⟩
  obtain ⟨l, hl, hleaf, hwithin⟩ := (h.legal hs).exists_active_leaf h.wellFormed (.inr hi)
  rcases chooseAlong_leaf_spec h.wellFormed none l with ⟨-, hno⟩ | ⟨u, -, hchooses⟩
  · exact hno ⟨i, position⟩ hwithin henabled
  · have hchosen : s.Chosen none u := ⟨l, hl, hleaf, hchooses⟩
    have hkernel := (h.select_spec none).2
    rw [hnil] at hkernel
    obtain ⟨v, hv, -⟩ := hkernel.outranked u hchosen List.not_mem_nil
    exact List.not_mem_nil hv

theorem queues_of_dequeue_eq_none (h : s.dequeue = none) : s.internal = [] ∧ s.derived = [] := by
  unfold dequeue at h
  split at h
  · cases h
  · cases h
  · next hinternal hderived => exact ⟨hinternal, hderived⟩

/-- A session that goes on running was not complete. -/
theorem checkFinal_of_running (h : s.checkFinal.phase = .running) : s.checkFinal = s := by
  unfold checkFinal at h ⊢
  split at h
  · cases h
  · next hfinal => rw [if_neg hfinal]

/-! ## The loop -/

/-- A round that ends the macrostep without an error has found nothing to do. -/
theorem settled_of_round (h : Coherent s) (hs : s.phase = .running) {result : Result}
    (hround : s.round = .over result) (hok : result.1 = none)
    (hrunning : result.2.phase = .running) : Settled result.2 := by
  have hfound := s.found_round
  rw [hround] at hfound
  -- Of the ways to end, all but the empty queue contradict success or running.
  cases hfound with
  | complete hfinal =>
      have heq : s.checkFinal = { s with phase := .final }.clearQueues := if_pos hfinal
      rw [heq] at hrunning
      cases hrunning
  | failed _ _ => cases hok
  | settled _ _ hempty hdequeue =>
      obtain ⟨hinternal, hderived⟩ := queues_of_dequeue_eq_none hdequeue
      exact ⟨hinternal, hderived, (sameView_select none).quiet
        (h.quiet (started_of_running hs) hempty)⟩
  | failedFor _ _ _ _ _ => cases hok

/-- The loop of a macrostep settles the session, if it ends without an error and
the chart is not complete. -/
theorem settled_settle (budget : Nat) (h : Coherent s) (hs : s.phase = .running)
    (hok : (settle budget s).1 = none) (hrunning : (settle budget s).2.phase = .running) :
    Settled (settle budget s).2 := by
  induction budget generalizing s with
  | zero =>
      unfold settle at hok hrunning ⊢
      rcases hround : s.round with result | ⟨ts, r⟩
      · rw [hround] at hok hrunning
        exact settled_of_round h hs hround hok hrunning
      · rw [hround] at hok
        cases hok
  | succ budget ih =>
      unfold settle at hok hrunning ⊢
      rcases hround : s.round with result | ⟨ts, r⟩
      · rw [hround] at hok hrunning
        exact settled_of_round h hs hround hok hrunning
      -- the round took transitions, and the rest of the budget goes on from there
      have hfrom := fromMoves_round hs
      rw [hround] at hfrom
      obtain ⟨hmoves, hphase⟩ := moves_takeAll hfrom
      have hcoherent : Coherent (r.takeAll ts) := Moves.coherent hmoves h
      rw [hround] at hok hrunning
      dsimp only at hok hrunning ⊢
      cases hpending : (r.takeAll ts).pending with
      | some error =>
          rw [hpending] at hok
          cases hok
      | none =>
          rw [hpending] at hok hrunning
          exact ih hcoherent hphase hok hrunning

theorem settled_macrostep {first : List TransitionRef} (h : Coherent s)
    (hfirst : first ≠ [] → Coherent (s.microstep first)) (hs : s.phase = .running)
    (hok : (s.macrostep first).1 = none) (hrunning : (s.macrostep first).2.phase = .running) :
    Settled (s.macrostep first).2 := by
  unfold macrostep at hok hrunning ⊢
  cases hpending : s.pending with
  | some error =>
      rw [hpending] at hok
      cases hok
  | none =>
      rw [hpending] at hok hrunning
      cases first with
      | nil => exact settled_settle _ h hs hok hrunning
      | cons t rest =>
          -- taking the first transitions uses up one of the microsteps
          cases hmax : s.config.maxMicrosteps with
          | zero =>
              rw [hmax] at hok
              cases hok
          | succ budget =>
              rw [hmax] at hok hrunning
              have hcoherent := hfirst (List.cons_ne_nil t rest)
              have hphase := (sameRun_microstep (t :: rest)).running hs
              dsimp only [List.isEmpty_cons] at hok hrunning ⊢
              cases hstep : (s.microstep (t :: rest)).pending with
              | some error =>
                  rw [hstep] at hok
                  cases hok
              | none =>
                  rw [hstep] at hok hrunning
                  exact settled_settle budget hcoherent hphase hok hrunning

/-! ## Calls -/

theorem settled_start (h : Coherent s) (hok : s.start.1 = none)
    (hrunning : s.start.2.phase = .running) : Settled s.start.2 := by
  by_cases hs : s.phase = .uninitialized
  · rw [start_of_uninitialized hs] at hok hrunning ⊢
    exact settled_macrostep (h.begin hs) (fun hne => absurd rfl hne) sameStates_begun.phase
      hok hrunning
  · rw [start_of_started hs] at hok
    cases hok

/-- A session that has received an event and has not looked for transitions
yet. -/
def receive (s : Session) (event : Event) : Session :=
  ({ s with failedGuards := [] }).setEvent event

/-- The session after it has looked for transitions for an event. -/
def selectFor (s : Session) (event : Event) : List TransitionRef × Session :=
  (s.receive event).select (some event)

/-- Nothing comes of an event: no transition is enabled, no failure is pending
and nothing is queued. -/
def isIdle (s : Session) (event : Event) : Bool :=
  (s.selectFor event).1.isEmpty && (s.selectFor event).2.pending.isNone &&
    (s.selectFor event).2.internal.isEmpty

/-- The session after an event of which nothing came. -/
def forget (s : Session) (event : Event) : Session :=
  let before := (s.data.get? DataModel.eventVariable).getD .null
  let r := (s.selectFor event).2
  { r with data := r.data.declare DataModel.eventVariable before }

theorem process_eq (event : Event) :
    s.process event = if s.isIdle event then (none, (s.forget event).checkFinal)
      else (s.selectFor event).2.macrostep (s.selectFor event).1 := rfl

/-- Guards see the same data as before the event, so nothing has to be looked
for again. -/
theorem sameView_forget (event : Event) (h : s.data.isDeclared DataModel.eventVariable) :
    SameView s (s.forget event) := by
  have hview : SameView (s.receive event) (s.selectFor event).2 := sameView_select (some event)
  have hdata : (s.forget event).data = s.data := by
    unfold forget
    dsimp only
    rw [hview.data]
    exact DataModel.declare_restore h event.toValue
  exact ⟨⟨⟨hview.model, hview.config, hview.evaluate, hview.phase⟩, hview.active⟩, hdata,
    hview.derived⟩

/-- An event of which something comes enters the loop, which settles the session
whatever its state was. -/
theorem settled_process_of_not_idle (event : Event) (h : Coherent s) (hs : s.phase = .running)
    (hbusy : s.isIdle event = false) (hok : (s.process event).1 = none)
    (hrunning : (s.process event).2.phase = .running) : Settled (s.process event).2 := by
  rw [process_eq, hbusy, if_neg Bool.false_ne_true] at hok hrunning ⊢
  have hphase : (s.receive event).phase = .running := hs
  have hreceived : Coherent (s.receive event) := (Move.receive event hs).coherent h
  exact settled_macrostep ((Move.select (some event) hphase).coherent hreceived)
    (fun _ => hreceived.step hphase (some event)) ((sameView_select (some event)).running hphase)
    hok hrunning

/-- An event of which nothing comes leaves all as it was. -/
theorem process_of_idle (event : Event) (hidle : s.isIdle event = true)
    (hrunning : (s.process event).2.phase = .running) :
    (s.process event).2 = s.forget event := by
  rw [process_eq, if_pos hidle] at hrunning ⊢
  exact checkFinal_of_running hrunning

/-- What a call that succeeds and leaves the session running has done: it settled the session,
or nothing came of its event. -/
theorem settled_or_forgotten (c : Call) (h : Coherent s) (hok : (s.call c).1 = none)
    (hrunning : (s.call c).2.phase = .running) :
    Settled (s.call c).2 ∨ s.phase = .running ∧
      ∃ event, s.isIdle event = true ∧ (s.call c).2 = s.forget event := by
  cases c with
  | start => exact .inl (settled_start h hok hrunning)
  | submit event =>
      have hsubmit : s.call (.submit event) = s.submit event := rfl
      rw [hsubmit] at hok hrunning ⊢
      unfold submit at hok hrunning ⊢
      cases hs : s.phase with
      | uninitialized =>
          rw [hs] at hok
          cases hok
      | halted =>
          rw [hs] at hok
          cases hok
      | final =>
          rw [hs] at hrunning
          have hphase : (s.report (ignoredReport event)).phase = .final := hs
          cases hphase.symm.trans hrunning
      | running =>
          rw [hs] at hok hrunning
          cases hidle : s.isIdle event with
          | false => exact .inl (settled_process_of_not_idle event h hs hidle hok hrunning)
          | true => exact .inr ⟨rfl, event, hidle, process_of_idle event hidle hrunning⟩

theorem queues_forget {event : Event} (hidle : s.isIdle event = true) (hderived : s.derived = []) :
    (s.forget event).internal = [] ∧ (s.forget event).derived = [] := by
  have hview : SameView (s.receive event) (s.selectFor event).2 := sameView_select (some event)
  simp only [isIdle, Bool.and_eq_true, List.isEmpty_iff] at hidle
  exact ⟨hidle.2, hview.derived.trans hderived⟩

/-! ## Runs -/

theorem queues_after {calls : List Call} (h : Coherent s)
    (hempty : s.phase = .running → s.internal = [] ∧ s.derived = []) (hok : s.Succeeds calls)
    (hrunning : (s.after calls).phase = .running) :
    (s.after calls).internal = [] ∧ (s.after calls).derived = [] := by
  induction calls generalizing s with
  | nil => exact hempty hrunning
  | cons c rest ih =>
      have hnext : (s.call c).2.phase = .running →
          (s.call c).2.internal = [] ∧ (s.call c).2.derived = [] := by
        intro hphase
        rcases settled_or_forgotten c h hok.1 hphase with hsettled | ⟨hs, event, hidle, heq⟩
        · exact ⟨hsettled.internal, hsettled.derived⟩
        · rw [heq]
          exact queues_forget hidle (hempty hs).2
      exact ih (Moves.coherent (moves_call c) h) hnext hok.2 hrunning

/-- The variable of the event is declared before each of some calls. -/
def KeepsEvent (s : Session) : List Call → Prop
  | [] => True
  | c :: rest => s.data.isDeclared DataModel.eventVariable ∧ (s.call c).2.KeepsEvent rest

theorem quiet_after {calls : List Call} (h : Coherent s) (hevent : s.KeepsEvent calls)
    (hquiet : s.phase = .running → s.Quiet) (hok : s.Succeeds calls)
    (hrunning : (s.after calls).phase = .running) : (s.after calls).Quiet := by
  induction calls generalizing s with
  | nil => exact hquiet hrunning
  | cons c rest ih =>
      have hnext : (s.call c).2.phase = .running → (s.call c).2.Quiet := by
        intro hphase
        rcases settled_or_forgotten c h hok.1 hphase with hsettled | ⟨hs, event, -, heq⟩
        · exact hsettled.quiet
        · rw [heq]
          exact (sameView_forget event hevent.1).quiet (hquiet hs)
      exact ih (Moves.coherent (moves_call c) h) hevent.2 hnext hok.2 hrunning

theorem keepsEvent_of_declares {calls : List Call} (h : s.Declares DataModel.eventVariable) :
    s.KeepsEvent calls := by
  induction calls generalizing s with
  | nil => trivial
  | cons c rest ih => exact ⟨h.declared, ih (Moves.declares (moves_call c) h)⟩

/-- If no action of the host takes the variable of the event away, it is declared before
every call of a run. -/
theorem keepsEvent_of_keeps {doc : Document} {registry : Registry} {model : Model}
    (hbuild : Model.build doc registry = .ok model)
    (hregistry : registry.Keeps DataModel.eventVariable) (config : Config) (evaluate : Evaluator)
    (calls : List Call) : (ofModel model config evaluate).KeepsEvent calls :=
  keepsEvent_of_declares
    ⟨Model.keeps_of_build hregistry hbuild, DataModel.isDeclared_declare_self _ _ _⟩

/-- While all calls have succeeded and the session is running, both queues are empty.  If the
variable of the event was declared before every call, no transition without an event is enabled
either; this is so whatever the calls are if no action of the host takes the variable away. -/
theorem settled_after_success {doc : Document} {registry : Registry} {model : Model}
    (hbuild : Model.build doc registry = .ok model) (config : Config) (evaluate : Evaluator)
    {calls : List Call} (hok : (ofModel model config evaluate).Succeeds calls)
    (hrunning : ((ofModel model config evaluate).after calls).phase = .running) :
    let s := (ofModel model config evaluate).after calls
    s.internal = [] ∧ s.derived = [] ∧
      ((ofModel model config evaluate).KeepsEvent calls → s.Quiet) ∧
      (registry.Keeps DataModel.eventVariable → s.Quiet) := by
  intro s
  have hcoherent : Coherent (ofModel model config evaluate) :=
    coherent_ofModel hbuild config evaluate
  have hfresh : (ofModel model config evaluate).phase = .uninitialized := rfl
  have hquiet : (ofModel model config evaluate).KeepsEvent calls → s.Quiet := fun hevent =>
    quiet_after hcoherent hevent (fun hphase => by cases hfresh.symm.trans hphase) hok hrunning
  obtain ⟨hinternal, hderived⟩ :=
    queues_after hcoherent (fun hphase => by cases hfresh.symm.trans hphase) hok hrunning
  exact ⟨hinternal, hderived, hquiet, fun hregistry =>
    hquiet (keepsEvent_of_keeps hbuild hregistry config evaluate calls)⟩

/-- A state that greets on entry, with a guard that fails on every selection. -/
def greeter : Document where
  datamodel := [("greeting", .null)]
  states :=
    [.state
      { id := "waiting"
        onEntry := [.custom "stock" "greet" [("value", .str "hi")]]
        transitions := [{ cond := some "missing.value" },
          { event := some "go", cond := some "_event.name == 'go'", target := some "done" }] } [],
     .state { id := "done" } []]

/-- The model of `greeter`. -/
def greeterModel : Model := (Model.build greeter (Stock.registry "stock")).toOption.getD default

theorem build_greeter : Model.build greeter (Stock.registry "stock") = .ok greeterModel := rfl

theorem settled_after_success_greeter :
    let s := ofModel greeterModel {} .standard
    let calls := [.start, .submit (.plain "other"), .submit (.plain "go")]
    Model.build greeter (Stock.registry "stock") = .ok greeterModel ∧
      (Stock.registry "stock").Keeps DataModel.eventVariable ∧ s.KeepsEvent calls ∧
      s.Succeeds calls ∧ (s.after calls).phase = .running ∧ (s.after calls).Quiet := by
  intro s calls
  have hkeeps : (Stock.registry "stock").Keeps DataModel.eventVariable :=
    Stock.keeps_registry "stock"
  have hevent : s.KeepsEvent calls := keepsEvent_of_keeps build_greeter hkeeps _ _ calls
  have hok : s.Succeeds calls :=
    ⟨by decide +kernel, by decide +kernel, by decide +kernel, trivial⟩
  have hrunning : (s.after calls).phase = .running := by decide +kernel
  obtain ⟨-, -, hquiet, -⟩ := settled_after_success build_greeter {} .standard hok hrunning
  exact ⟨build_greeter, hkeeps, hevent, hok, hrunning, hquiet hevent⟩

/-- An action of a host that throws all variables away. -/
def wipe : ActionType where
  name := "wipe"
  make _ := some fun _ => .idle .empty

/-- A registry with this action. -/
def wiping : Registry := Registry.empty.insert "host" "wipe" wipe

/-- A state whose guard fails as long as the variable of the event is missing.  The failure
brings the variable back, and it is thrown away once more. -/
def forgetful : Document where
  states :=
    [.state
      { id := "a"
        onEntry := [.custom "host" "wipe" []]
        transitions := [{ cond := some "_event == null", target := some "b" },
          { event := some "error.execution", actions := [.custom "host" "wipe" []] }] } [],
     .state { id := "b" } []]

/-- The model of `forgetful`. -/
def forgetfulModel : Model := (Model.build forgetful wiping).toOption.getD default

theorem build_forgetful : Model.build forgetful wiping = .ok forgetfulModel := rfl

/-- All calls succeed and nothing comes of `poke`.  It leaves the variable of the event
declared, and with it a transition enabled that needs no event. -/
theorem not_quiet_after_success :
    let s := ofModel forgetfulModel {} .standard
    let calls := [.start, .submit (.plain "poke")]
    Model.build forgetful wiping = .ok forgetfulModel ∧ s.Succeeds calls ∧
      (s.after calls).phase = .running ∧
      (s.after [.start]).data.isDeclared DataModel.eventVariable = false ∧
      (s.after [.start]).isIdle (.plain "poke") = true ∧ ¬ (s.after calls).Quiet := by
  intro s calls
  have hok : s.Succeeds calls := ⟨by decide +kernel, by decide +kernel, trivial⟩
  refine ⟨build_forgetful, hok, by decide +kernel, by decide +kernel, by decide +kernel,
    fun hquiet => ?_⟩
  have harena : (s.after calls).arena = forgetfulModel.arena :=
    (Moves.sameChart (moves_after calls)).arena
  have hactive : (s.after calls).active = [1] := by decide +kernel
  have htransition : (forgetfulModel.arena.state 1).transitions[0]? =
      some (forgetfulModel.arena.transition ⟨1, 0⟩) := rfl
  have hguard : (s.after calls).evaluate.holds "_event == null" (s.after calls).data =
      .ok true := by
    decide +kernel
  refine hquiet 1 ?_ (forgetfulModel.arena.transition ⟨1, 0⟩) ?_ rfl hguard
  · rw [hactive]
    exact List.mem_singleton_self 1
  · rw [harena]
    exact List.mem_of_getElem? htransition

end Session
end Statechart
