import Statechart.Proofs.Session.Operation

/-!
# The course of a call

A call is refused, or an event for a complete chart is ignored, or the engine
works.  In the last case the call opens, advances while no failure is pending,
and ends in one of four ways (`Ending`).  `Course` also says of which operations
the call consists, in the order in which they are performed.

`exists_course` says that every call takes such a course, so that later proofs
need not look into the loop of the macrostep any more.

Between calls a session is at rest (`AtRest`): no failure is pending, nothing
waits in a queue, and the phase tells whether the chart is complete.  Every call
leads from rest to rest (`AtRest.call`), and so all sessions that a host can
hold are at rest (`Held.atRest`).
-/

namespace Statechart

/-- Holds of the errors that a macrostep is aborted with. -/
def ExecutionError.IsFailure : ExecutionError → Prop
  | expression _ => True
  | action _ => True
  | _ => False

namespace Session

/-- Operations within a macrostep that begin while no failure is pending. -/
inductive Advance (s : Session) : List Operation → Session → Prop where
  | dequeue {r : Session} {event : Event} : s.phase = .running → s.pending = none →
    s.dequeue = some (event, r) → Advance s [.dequeue] (r.setEvent event)
  | select (event : Option Event) : s.phase = .running → s.pending = none →
    Advance s (s.looking event) (s.select event).2
  /-- Transitions are selected and taken. -/
  | step (event : Option Event) : s.phase = .running → s.pending = none →
    (s.select event).2.pending = none →
    Advance s (s.looking event ++ (s.select event).2.stepping (s.select event).1)
      ((s.select event).2.microstep (s.select event).1)
  | restore (v : Value) : s.phase = .running → s.pending = none →
    Advance s [.restore v] { s with data := s.data.declare DataModel.eventVariable v }

/-- Any number of advances within a macrostep. -/
inductive Advances (s : Session) : List Operation → Session → Prop where
  | refl : Advances s [] s
  | tail {q r : Session} {ops later : List Operation} :
    Advances s ops q → Advance q later r → Advances s (ops ++ later) r

/-- What a call begins with, if the engine works at all. -/
inductive Opening (s : Session) : Call → List Operation → Session → Prop where
  | start : s.phase = .uninitialized → Opening s .start s.beginning s.begun
  | submit (event : Event) : s.phase = .running →
    Opening s (.submit event) [.receive event] (s.receive event)

/-- The phase does not allow a call, and this is the error that says so. -/
inductive Refuses (s : Session) : Call → ExecutionError → Prop where
  | unstarted (event : Event) : s.phase = .uninitialized → Refuses s (.submit event) .notStarted
  | started : s.phase ≠ .uninitialized → Refuses s .start .alreadyStarted
  | halted (event : Event) : s.phase = .halted → Refuses s (.submit event) .halted

/-- How a call ends. -/
inductive Ending (r : Session) : Result → Prop where
  /-- A failure is pending. -/
  | aborted (error : ExecutionError) : r.pending = some error → Ending r (r.abort error)
  /-- The bound on microsteps is exceeded. -/
  | halted : r.pending = none → r.isFinalConfiguration = false → Ending r r.halt
  /-- The chart is complete. -/
  | complete : r.pending = none → r.isFinalConfiguration = true → Ending r (none, r.checkFinal)
  /-- Nothing is left to do. -/
  | settled : r.pending = none → r.isFinalConfiguration = false →
    (∀ queue, r.waiting queue = []) → Ending r (none, r)

/-- The course of a call: its operations and its result. -/
inductive Course (s : Session) : Call → List Operation → Result → Prop where
  /-- The call does not fit the phase. -/
  | refused {c : Call} {error : ExecutionError} : Refuses s c error →
    Course s c [] (some error, s)
  /-- The chart is complete already. -/
  | ignored (event : Event) : s.phase = .final →
    Course s (.submit event) [.ignore event] (none, s.report (ignoredReport event))
  | worked {c : Call} {first later : List Operation} {q r : Session} {result : Result} :
    Opening s c first q → Advances q later r → Ending r result →
    Course s c (first ++ later) result

/-- A macrostep that goes on from the session ends like this. -/
def EndsWith (s : Session) (result : Result) : Prop :=
  ∃ ops r, Advances s ops r ∧ Ending r result

variable {s r q : Session} {c : Call} {result : Result} {ops later : List Operation}

/-- Being refused is no failure of the chart. -/
theorem Refuses.not_isFailure {error : ExecutionError} (h : Refuses s c error) :
    ¬ error.IsFailure := by
  cases h <;> exact id

theorem Advance.advances (h : Advance s ops r) : Advances s ops r := .tail .refl h

theorem Advances.trans (h : Advances s ops q) (h' : Advances q later r) :
    Advances s (ops ++ later) r := by
  induction h' with
  | refl => rwa [List.append_nil]
  | tail _ hmove ih =>
      rw [← List.append_assoc]
      exact ih.tail hmove

theorem EndsWith.after (h : EndsWith r result) (hbefore : Advances s ops r) :
    EndsWith s result := by
  obtain ⟨later, q, hq, hending⟩ := h
  exact ⟨ops ++ later, q, hbefore.trans hq, hending⟩

theorem Ending.endsWith (h : Ending s result) : EndsWith s result := ⟨[], s, .refl, h⟩

/-! ## Moves -/

theorem Advance.move (h : Advance s ops r) : Move s r := by
  cases h with
  | dequeue hs _ hdequeue => exact .dequeue hs hdequeue
  | select event hs _ => exact .select event hs
  | step event hs _ _ => exact .step event hs
  | restore v hs _ => exact .restore v hs

theorem Advances.moves (h : Advances s ops r) : Moves s r := by
  induction h with
  | refl => exact .refl
  | tail _ hmove ih => exact ih.tail hmove.move

theorem Opening.move (h : Opening s c ops q) : Move s q := by
  cases h with
  | start hs => exact .begin hs
  | submit event hs => exact .receive event hs

theorem Opening.phase (h : Opening s c ops q) : q.phase = .running := by
  cases h with
  | start _ => exact sameStates_begun.phase
  | submit _ hs => exact hs

theorem Advances.phase (h : Advances s ops r) (hs : s.phase = .running) : r.phase = .running := by
  induction h with
  | refl => exact hs
  | tail _ hmove ih =>
      cases hmove with
      | dequeue _ _ hdequeue =>
          exact ((sameStates_dequeue hdequeue).trans (sameStates_setEvent _)).running ih
      | select event _ _ => exact (sameView_select event).running ih
      | step event _ _ _ =>
          exact (sameRun_microstep _).running ((sameView_select event).running ih)
      | restore _ _ _ => exact ih

/-- Performing the operations leads where the call gets. -/
theorem Advance.performAll (h : Advance s ops r) : s.performAll ops = r := by
  cases h with
  | dequeue _ _ hdequeue =>
      rw [performAll_cons, perform, hdequeue]
      rfl
  | select event _ _ => exact performAll_looking event
  | step event _ _ _ => rw [performAll_append, performAll_looking, performAll_stepping]
  | restore v _ _ => rfl

theorem Advances.performAll (h : Advances s ops r) : s.performAll ops = r := by
  induction h with
  | refl => rfl
  | tail _ hmove ih => rw [performAll_append, ih, hmove.performAll]

theorem Opening.performAll (h : Opening s c ops q) : s.performAll ops = q := by
  cases h with
  | start _ => exact performAll_beginning
  | submit event _ => rfl

/-! ## Completeness of the chart -/

/-- Whether a chart is complete depends on its active states and on one flag. -/
theorem isFinalConfiguration_congr (harena : r.arena = s.arena) (hactive : r.active = s.active)
    (hflag : r.isTopFinal = s.isTopFinal) : r.isFinalConfiguration = s.isFinalConfiguration := by
  simp only [isFinalConfiguration, harena, hactive, hflag]

theorem isTopFinal_guardHolds (t : TransitionRef) (cond : Option String) :
    (s.guardHolds t cond).2.isTopFinal = s.isTopFinal := by
  unfold guardHolds guardFailed fail
  split
  · rfl
  · split
    · rfl
    · split
      · rfl
      · dsimp only
        split <;> rfl

theorem isTopFinal_select (event : Option Event) :
    (s.select event).2.isTopFinal = s.isTopFinal := by
  rw [← performAll_looking]
  refine performAll_keeps isTopFinal fun op hop s => ?_
  have hlooking := isLooking_looking event op hop
  cases op with
  | test t => exact isTopFinal_guardHolds t _
  | select _ _ => rfl
  | _ => exact hlooking.elim

theorem isFinalConfiguration_select (event : Option Event) :
    (s.select event).2.isFinalConfiguration = s.isFinalConfiguration :=
  have hview := sameView_select (s := s) event
  isFinalConfiguration_congr hview.toSameRun.arena hview.active (isTopFinal_select event)

theorem isTopFinal_dequeue {event : Event} (h : s.dequeue = some (event, r)) :
    r.isTopFinal = s.isTopFinal := by
  obtain ⟨_, _, _, rfl⟩ := exists_eq_of_dequeue h
  rfl

/-! ## The loop -/

/-- What a round comes to: the macrostep ends, or transitions were selected that
are to be taken. -/
def Round.FromAdvances (s : Session) : Round → Prop
  | .over result => EndsWith s result
  | .take ts r => ∃ ops q event, Advances s ops q ∧ q.phase = .running ∧ q.pending = none ∧
      q.select event = (ts, r) ∧ r.pending = none ∧ r.isFinalConfiguration = false

/-- Taking an event from a queue does not end anything. -/
theorem pending_setEvent_dequeue {event : Event} (h : s.dequeue = some (event, r)) :
    (r.setEvent event).pending = s.pending := by
  obtain ⟨_, _, _, rfl⟩ := exists_eq_of_dequeue h
  rfl

theorem isFinalConfiguration_setEvent_dequeue {event : Event}
    (h : s.dequeue = some (event, r)) :
    (r.setEvent event).isFinalConfiguration = s.isFinalConfiguration :=
  have hsame := (sameStates_dequeue h).trans (sameStates_setEvent event)
  have hflag : r.isTopFinal = s.isTopFinal := isTopFinal_dequeue h
  isFinalConfiguration_congr hsame.toSameRun.arena hsame.active hflag

theorem fromAdvances_round (hs : s.phase = .running) (hpending : s.pending = none) :
    Round.FromAdvances s s.round := by
  have hphase : (s.select none).2.phase = .running := (sameView_select none).running hs
  have hselect : Advances s (s.looking none) (s.select none).2 :=
    Advance.advances (.select none hs hpending)
  have hfound := s.found_round
  generalize s.round = round at hfound ⊢
  cases hfound with
  | complete hfinal => exact (Ending.complete hpending hfinal).endsWith
  | failed _ herror => exact (Ending.aborted _ herror).endsWith.after hselect
  | enabled hfinal hselected _ =>
      refine ⟨_, s, none, .refl, hs, hpending, rfl, hselected, ?_⟩
      rw [isFinalConfiguration_select, hfinal]
  | settled hfinal hselected _ hdequeue =>
      have hopen : (s.select none).2.isFinalConfiguration = false := by
        rw [isFinalConfiguration_select, hfinal]
      obtain ⟨hinternal, hderived⟩ := queues_of_dequeue_eq_none hdequeue
      refine (Ending.settled hselected hopen fun queue => ?_).endsWith.after hselect
      cases queue with
      | internal => exact hinternal
      | derived => exact hderived
  | @failedFor event q _ _ hselected _ hdequeue herror =>
      have hevent : (q.setEvent event).phase = .running :=
        (sameStates_dequeue hdequeue).running hphase
      have hnone := (pending_setEvent_dequeue hdequeue).trans hselected
      exact (Ending.aborted _ herror).endsWith.after
        ((hselect.tail (.dequeue hphase hselected hdequeue)).tail (.select _ hevent hnone))
  | @enabledFor event q hfinal hselected _ hdequeue hsecond =>
      have hevent : (q.setEvent event).phase = .running :=
        (sameStates_dequeue hdequeue).running hphase
      have hnone := (pending_setEvent_dequeue hdequeue).trans hselected
      refine ⟨_, q.setEvent event, some event,
        hselect.tail (.dequeue hphase hselected hdequeue), hevent, hnone, rfl, hsecond, ?_⟩
      rw [isFinalConfiguration_select, isFinalConfiguration_setEvent_dequeue hdequeue,
        isFinalConfiguration_select, hfinal]

/-- A round that takes transitions takes them in moves. -/
theorem advances_takeAll {ts : List TransitionRef} (h : Round.FromAdvances s (.take ts r)) :
    ∃ ops, Advances s ops (r.takeAll ts) := by
  obtain ⟨ops, q, event, hq, hphase, hpending, hselect, hselected, -⟩ := h
  obtain rfl : (q.select event).2 = r := by rw [hselect]
  obtain rfl : (q.select event).1 = ts := by rw [hselect]
  unfold takeAll
  split
  · exact ⟨_, hq.tail (.select event hphase hpending)⟩
  · exact ⟨_, hq.tail (.step event hphase hpending hselected)⟩

theorem endsWith_settle (budget : Nat) (hs : s.phase = .running) (hpending : s.pending = none) :
    EndsWith s (settle budget s) := by
  induction budget generalizing s with
  | zero =>
      have hround := fromAdvances_round hs hpending
      unfold settle
      split
      · next result heq => rwa [heq] at hround
      · next ts r heq =>
        rw [heq] at hround
        -- halted between selecting and taking
        obtain ⟨ops, q, event, hq, hphase, hnone, hselect, hselected, hopen⟩ := hround
        obtain rfl : (q.select event).2 = r := by rw [hselect]
        exact (Ending.halted hselected hopen).endsWith.after
          (hq.tail (.select event hphase hnone))
  | succ budget ih =>
      have hround := fromAdvances_round hs hpending
      unfold settle
      split
      · next result heq => rwa [heq] at hround
      · next ts r heq =>
        rw [heq] at hround
        obtain ⟨ops, htaken⟩ := advances_takeAll hround
        dsimp only
        split
        · next error herror => exact (Ending.aborted error herror).endsWith.after htaken
        · next hnone => exact (ih (Advances.phase htaken hs) hnone).after htaken

/-- A macrostep that begins with transitions that were just selected. -/
theorem endsWith_macrostep_select (event : Option Event) (hs : s.phase = .running)
    (hpending : s.pending = none) (hfinal : s.isFinalConfiguration = false) :
    EndsWith s ((s.select event).2.macrostep (s.select event).1) := by
  have hselect : Advances s (s.looking event) (s.select event).2 :=
    Advance.advances (.select event hs hpending)
  have hphase : (s.select event).2.phase = .running := Advances.phase hselect hs
  unfold macrostep
  split
  · next error herror => exact (Ending.aborted error herror).endsWith.after hselect
  next hselected =>
  split
  · exact (endsWith_settle _ hphase hselected).after hselect
  split
  · have hopen : (s.select event).2.isFinalConfiguration = false := by
      rw [isFinalConfiguration_select, hfinal]
    exact (Ending.halted hselected hopen).endsWith.after hselect
  have hstep := Advance.advances (.step event hs hpending hselected)
  dsimp only
  split
  · next error herror => exact (Ending.aborted error herror).endsWith.after hstep
  · next hnone => exact (endsWith_settle _ (Advances.phase hstep hs) hnone).after hstep

theorem endsWith_start (hs : s.phase = .uninitialized) : EndsWith s.begun s.start := by
  rw [start_of_uninitialized hs]
  unfold macrostep
  split
  · next error herror => exact (Ending.aborted error herror).endsWith
  · next hnone => exact endsWith_settle _ sameStates_begun.phase hnone

/-! ## Sessions at rest -/

/-- Nothing is under way in a session. -/
structure AtRest (s : Session) : Prop where
  coherent : Coherent s
  pending : s.pending = none
  waiting : ∀ queue, s.waiting queue = []
  final_iff : s.phase ≠ .uninitialized → (s.phase = .final ↔ s.isFinalConfiguration = true)

theorem AtRest.not_complete (h : AtRest s) (hs : s.phase = .running) :
    s.isFinalConfiguration = false := by
  refine Bool.eq_false_iff.2 fun hfinal => ?_
  have hphase := (h.final_iff (started_of_running hs)).2 hfinal
  cases hs.symm.trans hphase

theorem endsWith_process (h : AtRest s) (hs : s.phase = .running) (event : Event) :
    EndsWith (s.receive event) (s.process event) := by
  have hphase : (s.receive event).phase = .running := hs
  have hpending : (s.receive event).pending = none := h.pending
  have hopen : (s.receive event).isFinalConfiguration = false := h.not_complete hs
  rw [process_eq]
  split
  · next hidle =>
    simp only [isIdle, Bool.and_eq_true, List.isEmpty_iff, Option.isNone_iff_eq_none] at hidle
    obtain ⟨⟨-, hselected⟩, hinternal⟩ := hidle
    have hview : SameView (s.receive event) (s.selectFor event).2 := sameView_select (some event)
    have hselect : Advances (s.receive event) ((s.receive event).looking (some event))
        (s.selectFor event).2 := Advance.advances (.select (some event) hphase hpending)
    have hforget := hselect.tail (.restore ((s.data.get? DataModel.eventVariable).getD .null)
      (hview.running hphase) hselected)
    have hstill : (s.forget event).isFinalConfiguration = false :=
      (isFinalConfiguration_select (some event)).trans hopen
    have hcheck : (s.forget event).checkFinal = s.forget event :=
      if_neg (Bool.eq_false_iff.1 hstill)
    rw [hcheck]
    have hwaiting : ∀ queue, (s.forget event).waiting queue = [] := fun queue => by
      cases queue with
      | internal => exact hinternal
      | derived => exact hview.derived.trans (h.waiting .derived)
    have hending : Ending (s.forget event) (none, s.forget event) :=
      .settled hselected hstill hwaiting
    exact hending.endsWith.after hforget
  · exact endsWith_macrostep_select (some event) hphase hpending hopen

/-- Every call of a session at rest takes its course. -/
theorem exists_course (h : AtRest s) (c : Call) : ∃ ops, Course s c ops (s.call c) := by
  cases c with
  | start =>
      by_cases hs : s.phase = .uninitialized
      · obtain ⟨ops, r, hadvances, hending⟩ := endsWith_start hs
        exact ⟨_, .worked (.start hs) hadvances hending⟩
      · have hrefused : s.call .start = (some .alreadyStarted, s) := start_of_started hs
        rw [hrefused]
        exact ⟨_, .refused (.started hs)⟩
  | submit event =>
      have hsubmit : s.call (.submit event) = s.submit event := rfl
      rw [hsubmit]
      unfold submit
      split
      · next hs => exact ⟨_, .refused (.unstarted event hs)⟩
      · next hs => exact ⟨_, .refused (.halted event hs)⟩
      · next hs => exact ⟨_, .ignored event hs⟩
      · next hs =>
        obtain ⟨ops, r, hadvances, hending⟩ := endsWith_process h hs event
        exact ⟨_, .worked (.submit event hs) hadvances hending⟩

/-! ## What an ending leaves -/

/-- The session as a call leaves it: nothing is under way any more. -/
def closed (s : Session) (phase : Phase) : Session :=
  { s with phase := phase, pending := none, internal := [], derived := [] }

theorem closed_self (hpending : s.pending = none) (hwaiting : ∀ queue, s.waiting queue = []) :
    s.closed s.phase = s := by
  have hinternal : s.internal = [] := hwaiting .internal
  have hderived : s.derived = [] := hwaiting .derived
  cases s with
  | mk _ _ _ _ _ _ internal derived _ _ _ _ pending _ _ =>
      cases hinternal
      cases hderived
      cases hpending
      rfl

theorem clearQueues_eq_closed (hpending : s.pending = none) (phase : Phase) :
    { s with phase := phase }.clearQueues = s.closed phase := by
  unfold closed
  rw [← hpending]
  rfl

theorem exists_checkFinal_eq_closed (hpending : s.pending = none) :
    ∃ phase, s.clearQueues.checkFinal = s.closed phase := by
  unfold checkFinal
  split
  · exact ⟨.final, clearQueues_eq_closed (s := s.clearQueues) hpending .final⟩
  · exact ⟨s.phase, clearQueues_eq_closed hpending s.phase⟩

namespace Ending

variable (h : Ending r result)
include h

/-- Apart from the phase, an ending only clears away what was under way. -/
theorem exists_eq_closed : ∃ phase, result.2 = r.closed phase := by
  cases h with
  | aborted error _ =>
      exact exists_checkFinal_eq_closed (s := { r with pending := none }) rfl
  | halted hpending _ => exact ⟨.halted, clearQueues_eq_closed hpending .halted⟩
  | complete hpending hfinal =>
      refine ⟨.final, ?_⟩
      have hcheck : r.checkFinal = { r with phase := .final }.clearQueues := if_pos hfinal
      rw [← clearQueues_eq_closed hpending]
      exact hcheck
  | settled hpending _ hwaiting => exact ⟨r.phase, (closed_self hpending hwaiting).symm⟩

/-- A pending failure is what the call returns. -/
theorem error_of_pending {error : ExecutionError} (hpending : r.pending = some error) :
    result.1 = some error := by
  cases h with
  | aborted error' herror => exact herror.symm.trans hpending
  | halted hnone _ => cases hnone.symm.trans hpending
  | complete hnone _ => cases hnone.symm.trans hpending
  | settled hnone _ _ => cases hnone.symm.trans hpending

/-- A failure that a call returns was pending. -/
theorem pending_of_error {error : ExecutionError} (herror : result.1 = some error)
    (hfailure : error.IsFailure) : r.pending = some error := by
  cases h with
  | aborted error' hpending => exact hpending.trans herror
  | halted _ _ =>
      obtain rfl := Option.some.inj herror
      exact hfailure.elim
  | complete _ _ => cases herror
  | settled _ _ _ => cases herror

/-- The phase afterwards tells whether the chart is complete. -/
theorem final_iff (hr : r.phase = .running) :
    result.2.phase = .final ↔ r.isFinalConfiguration = true := by
  cases h with
  | aborted error _ =>
      show ({ r with pending := none }.clearQueues.checkFinal).phase = .final ↔ _
      unfold checkFinal
      split
      · next hfinal => exact ⟨fun _ => hfinal, fun _ => rfl⟩
      · next hfinal =>
        refine ⟨fun hphase => ?_, fun hfinal' => absurd hfinal' hfinal⟩
        cases hr.symm.trans hphase
  | halted _ hfinal =>
      refine ⟨fun hphase => ?_, fun hfinal' => ?_⟩
      · cases hphase
      · cases hfinal.symm.trans hfinal'
  | complete _ hfinal =>
      have hcheck : r.checkFinal = { r with phase := .final }.clearQueues := if_pos hfinal
      refine ⟨fun _ => hfinal, fun _ => ?_⟩
      show r.checkFinal.phase = .final
      rw [hcheck]
      rfl
  | settled _ hfinal _ =>
      refine ⟨fun hphase => ?_, fun hfinal' => ?_⟩
      · cases hr.symm.trans hphase
      · cases hfinal.symm.trans hfinal'

end Ending

/-! ## Between calls -/

theorem isFinalConfiguration_closed (phase : Phase) :
    (s.closed phase).isFinalConfiguration = s.isFinalConfiguration :=
  isFinalConfiguration_congr rfl rfl rfl

/-- Every call leads from rest to rest. -/
theorem AtRest.call (h : AtRest s) (c : Call) : AtRest (s.call c).2 := by
  have hcoherent : Coherent (s.call c).2 := Moves.coherent (moves_call c) h.coherent
  have hwaiting : ∀ queue, (s.call c).2.waiting queue = [] := by
    obtain ⟨_, -, hcloses⟩ := accounted_call c h.waiting
    exact hcloses.empty
  obtain ⟨ops, hcourse⟩ := exists_course h c
  generalize s.call c = result at hcoherent hwaiting hcourse ⊢
  cases hcourse with
  | refused _ => exact h
  | ignored event _ => exact ⟨hcoherent, h.pending, hwaiting, h.final_iff⟩
  | worked hopening hadvances hending =>
      have hphase := Advances.phase hadvances hopening.phase
      obtain ⟨phase, hclosed⟩ := hending.exists_eq_closed
      have hfinal := hending.final_iff hphase
      rw [← isFinalConfiguration_closed phase, ← hclosed] at hfinal
      refine ⟨hcoherent, ?_, hwaiting, fun _ => hfinal⟩
      rw [hclosed]
      rfl

theorem atRest_ofModel {doc : Document} {registry : Registry} {model : Model}
    (hbuild : Model.build doc registry = .ok model) (config : Config) (evaluate : Evaluator) :
    AtRest (ofModel model config evaluate) where
  coherent := coherent_ofModel hbuild config evaluate
  pending := rfl
  waiting := waiting_ofModel model config evaluate
  final_iff h := absurd rfl h

/-- What a host chooses or takes away plays no part between calls. -/
theorem AtRest.withHost (h : AtRest s) (config : Config) (evaluate : Evaluator)
    (reports : ReportLog) (output : List Output) :
    AtRest (s.withHost config evaluate reports output) where
  coherent := h.coherent.withHost config evaluate reports output
  pending := h.pending
  waiting queue := h.waiting queue
  final_iff := h.final_iff

/-- The sessions that a host can hold: fresh sessions of built models, and what
becomes of them. -/
inductive Held : Session → Prop where
  | fresh {doc : Document} {registry : Registry} {model : Model} :
    Model.build doc registry = .ok model → ∀ config evaluate,
      Held (ofModel model config evaluate)
  | call {s : Session} (c : Call) : Held s → Held (s.call c).2
  | withConfig {s : Session} (config : Config) : Held s → Held (s.withConfig config)
  | withEvaluator {s : Session} (evaluate : Evaluator) : Held s → Held (s.withEvaluator evaluate)
  | withHook {s : Session} : Held s → Held s.withHook
  | takeReports {s : Session} : Held s → Held s.takeReports.2
  | takeOutput {s : Session} : Held s → Held s.takeOutput.2

theorem Held.after (h : Held s) (calls : List Call) : Held (s.after calls) := by
  induction calls generalizing s with
  | nil => exact h
  | cons c rest ih => exact ih (.call c h)

theorem Held.atRest (h : Held s) : AtRest s := by
  induction h with
  | fresh hbuild config evaluate => exact atRest_ofModel hbuild config evaluate
  | call c _ ih => exact ih.call c
  | @withConfig s config _ ih => exact ih.withHost config s.evaluate _ s.output
  | @withEvaluator s evaluate _ ih => exact ih.withHost s.config evaluate s.reports s.output
  | @withHook s _ ih => exact ih.withHost s.config s.evaluate _ s.output
  | @takeReports s _ ih => exact ih.withHost s.config s.evaluate _ s.output
  | @takeOutput s _ ih => exact ih.withHost s.config s.evaluate s.reports []

/-- What a host can hold is reachable. -/
theorem Held.reachable (h : Held s) : s.Reachable := by
  induction h with
  | fresh hbuild config evaluate => exact .fresh hbuild config evaluate
  | call c _ ih => exact ih.moves (moves_call c)
  | @withConfig s config _ ih => exact .withHost config s.evaluate _ s.output ih
  | @withEvaluator s evaluate _ ih => exact .withHost s.config evaluate s.reports s.output ih
  | @withHook s _ ih => exact .withHost s.config s.evaluate _ s.output ih
  | @takeReports s _ ih => exact .withHost s.config s.evaluate _ s.output ih
  | @takeOutput s _ ih => exact .withHost s.config s.evaluate s.reports [] ih

end Session
end Statechart
