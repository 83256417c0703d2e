import Statechart.Proofs.Arena.Built
import Statechart.Proofs.Session.Microstep

/-!
# Runs

A host starts a session and submits events.  Each call is a sequence of `Move`s,
which are the places where the engine can be seen between two of its operations.
A session is `Reachable` if moves lead to it from a fresh session of a built
model, so the reachable sessions are those after a call and those in the middle
of one.  A host may change the configuration, the evaluator, the reports and the
output at any time.

What looking for the next round of a macrostep can come to is said once (`Found`),
and whatever is proved of rounds is proved by these cases.

What holds of a fresh session and is kept by every move holds of all of them.
The invariant here is `Coherent`: the active states are in document order, there
are none before the start, and afterwards they are always a legal configuration,
also when content or guards fail, when a macrostep is aborted, and when the
session is halted.
-/

namespace Statechart

/-- What a host asks of a session. -/
inductive Call where
  | start
  | submit (event : Event)

namespace Session

/-- Makes a call. -/
def call (s : Session) : Call → Result
  | .start => s.start
  | .submit event => s.submit event

/-- The session after some calls, whether they succeed or fail. -/
def after (s : Session) (calls : List Call) : Session :=
  calls.foldl (fun s c => (s.call c).2) s

/-! ## Moves -/

/-- A fresh session after its initial states are entered. -/
def begun (s : Session) : Session :=
  ({ s with phase := .running, failedGuards := [] }).enterAll s.arena.initialStates

/-- One move of the engine within a call. -/
inductive Move : Session → Session → Prop where
  /-- The initial states are entered. -/
  | begin {s : Session} : s.phase = .uninitialized → Move s s.begun
  /-- An event comes from outside. -/
  | receive {s : Session} (event : Event) : s.phase = .running →
    Move s (({ s with failedGuards := [] }).setEvent event)
  /-- An event is taken from a queue. -/
  | dequeue {s r : Session} {event : Event} : s.phase = .running →
    s.dequeue = some (event, r) → Move s (r.setEvent event)
  /-- Transitions are selected; a guard may fail. -/
  | select {s : Session} (event : Option Event) : s.phase = .running → Move s (s.select event).2
  /-- Transitions are selected and taken. -/
  | step {s : Session} (event : Option Event) : s.phase = .running →
    Move s ((s.select event).2.microstep (s.select event).1)
  /-- An event that enables nothing is forgotten. -/
  | restore {s : Session} (v : Value) : s.phase = .running →
    Move s { s with data := s.data.declare DataModel.eventVariable v }
  /-- The macrostep is aborted. -/
  | abort {s : Session} : s.phase = .running → Move s { s with pending := none }.clearQueues
  /-- The bound on microsteps is exceeded. -/
  | halt {s : Session} : s.phase = .running → Move s { s with phase := .halted }.clearQueues
  /-- The chart is complete. -/
  | finish {s : Session} : s.phase = .running → s.isFinalConfiguration →
    Move s { s with phase := .final }.clearQueues
  /-- A complete chart gets an event. -/
  | ignore {s : Session} (event : Event) : s.phase = .final →
    Move s (s.report (ignoredReport event))

/-- Any number of moves. -/
abbrev Moves : Session → Session → Prop := Relation.ReflTransGen Move

/-- The session with what a host may choose and take away. -/
def withHost (s : Session) (config : Config) (evaluate : Evaluator) (reports : ReportLog)
    (output : List Output) : Session :=
  { s with config := config, evaluate := evaluate, reports := reports, output := output }

/-- The sessions that moves of the engine and changes of the host lead to from a fresh session
of a built model. -/
inductive Reachable : Session → Prop where
  | fresh {doc : Document} {registry : Registry} {model : Model} :
    Model.build doc registry = .ok model → ∀ config evaluate,
      Reachable (ofModel model config evaluate)
  | move {s r : Session} : Reachable s → Move s r → Reachable r
  | withHost {s : Session} (config : Config) (evaluate : Evaluator) (reports : ReportLog)
      (output : List Output) : Reachable s →
    Reachable (s.withHost config evaluate reports output)

variable {s r q : Session}

/-- What begins in a running phase goes on in it. -/
theorem SameRun.running (h : SameRun s r) (hs : s.phase = .running) : r.phase = .running :=
  h.phase.trans hs

/-- Beginning is not within one phase, so this is about what it begins with. -/
theorem sameStates_begun :
    SameStates ({ s with phase := .running, failedGuards := [] }.withActive
      (s.arena.initialStates.foldl StateSet.enter s.active)) s.begun :=
  sameStates_enterAll (s := { s with phase := .running, failedGuards := [] }) _

/-- Taking an event out of a queue changes nothing but the queue and the journal. -/
theorem exists_eq_of_dequeue {event : Event} (h : s.dequeue = some (event, r)) :
    ∃ internal derived journal,
      r = { s with internal := internal, derived := derived, journal := journal } := by
  unfold dequeue at h
  split at h
  · exact ⟨_, _, _, (Prod.mk.inj (Option.some.inj h)).2.symm⟩
  · exact ⟨_, _, _, (Prod.mk.inj (Option.some.inj h)).2.symm⟩
  · cases h

theorem sameStates_dequeue {event : Event} (h : s.dequeue = some (event, r)) :
    SameStates s r := by
  obtain ⟨_, _, _, rfl⟩ := exists_eq_of_dequeue h
  exact ⟨⟨rfl, rfl, rfl, rfl⟩, rfl⟩

theorem data_dequeue {event : Event} (h : s.dequeue = some (event, r)) : r.data = s.data := by
  obtain ⟨_, _, _, rfl⟩ := exists_eq_of_dequeue h
  rfl

theorem moves_checkFinal (h : s.phase = .running) : Moves s s.checkFinal := by
  unfold checkFinal
  split
  · next hfinal => exact .single (.finish h hfinal)
  · exact .refl

theorem moves_abort (h : s.phase = .running) (error : ExecutionError) :
    Moves s (s.abort error).2 :=
  .head (.abort h) (moves_checkFinal h)

theorem moves_halt (h : s.phase = .running) : Moves s s.halt.2 := .single (.halt h)

/-! ## What a call sets off -/

theorem start_of_uninitialized (h : s.phase = .uninitialized) :
    s.start = s.begun.macrostep [] := by
  unfold start
  rw [if_pos h]
  rfl

theorem start_of_started (h : s.phase ≠ .uninitialized) :
    s.start = (some .alreadyStarted, s) := if_neg h

theorem submit_of_running (h : s.phase = .running) (event : Event) :
    s.submit event = s.process event := by
  unfold submit
  rw [h]

theorem submit_of_uninitialized (h : s.phase = .uninitialized) (event : Event) :
    s.submit event = (some .notStarted, s) := by
  unfold submit
  rw [h]

theorem submit_of_final (h : s.phase = .final) (event : Event) :
    s.submit event = (none, s.report (ignoredReport event)) := by
  unfold submit
  rw [h]

theorem submit_of_halted (h : s.phase = .halted) (event : Event) :
    s.submit event = (some .halted, s) := by
  unfold submit
  rw [h]

/-! ## What a round comes to -/

/-- What looking for a round can come to.  Transitions without an event are looked for
first, and if there are none, those for the next event in a queue. -/
inductive Found (s : Session) : Round → Prop where
  | complete : s.isFinalConfiguration = true → Found s (.over (none, s.checkFinal))
  | failed {error : ExecutionError} : s.isFinalConfiguration = false →
    (s.select none).2.pending = some error → Found s (.over ((s.select none).2.abort error))
  | enabled : s.isFinalConfiguration = false → (s.select none).2.pending = none →
    (s.select none).1 ≠ [] → Found s (.take (s.select none).1 (s.select none).2)
  | settled : s.isFinalConfiguration = false → (s.select none).2.pending = none →
    (s.select none).1 = [] → (s.select none).2.dequeue = none →
      Found s (.over (none, (s.select none).2))
  | failedFor {event : Event} {q : Session} {error : ExecutionError} :
    s.isFinalConfiguration = false → (s.select none).2.pending = none →
      (s.select none).1 = [] → (s.select none).2.dequeue = some (event, q) →
        ((q.setEvent event).select (some event)).2.pending = some error →
          Found s (.over (((q.setEvent event).select (some event)).2.abort error))
  | enabledFor {event : Event} {q : Session} :
    s.isFinalConfiguration = false → (s.select none).2.pending = none →
      (s.select none).1 = [] → (s.select none).2.dequeue = some (event, q) →
        ((q.setEvent event).select (some event)).2.pending = none →
          Found s (.take ((q.setEvent event).select (some event)).1
            ((q.setEvent event).select (some event)).2)

theorem found_round (s : Session) : Found s s.round := by
  unfold round
  split
  · next hfinal => exact .complete hfinal
  next hfinal =>
  have hopen := Bool.eq_false_iff.2 hfinal
  dsimp only
  split
  · next error herror => exact .failed hopen herror
  next hnone =>
  split
  · next hempty =>
    have hnil := List.isEmpty_iff.1 hempty
    unfold nextEvent
    split
    · next hdequeue => exact .settled hopen hnone hnil hdequeue
    · next event q hdequeue =>
      dsimp only
      split
      · next error herror => exact .failedFor hopen hnone hnil hdequeue herror
      · next hselected => exact .enabledFor hopen hnone hnil hdequeue hselected
  · next hne => exact .enabled hopen hnone fun hnil => hne (List.isEmpty_iff.2 hnil)

/-! ## Calls are moves -/

/-- What a round comes to is reached by moves.  Transitions that are to be taken
were selected in a session that was reached before. -/
def Round.FromMoves (s : Session) : Round → Prop
  | .over result => Moves s result.2
  | .take ts r => ∃ q event, Moves s q ∧ q.phase = .running ∧ q.select event = (ts, r)

theorem fromMoves_round (h : s.phase = .running) : Round.FromMoves s s.round := by
  have hselected : (s.select none).2.phase = .running := (sameView_select none).running h
  have hmoves : Moves s (s.select none).2 := .single (.select none h)
  have hfound := s.found_round
  generalize s.round = round at hfound ⊢
  cases hfound with
  | complete _ => exact moves_checkFinal h
  | failed _ _ => exact hmoves.trans (moves_abort hselected _)
  | enabled _ _ _ => exact ⟨s, none, .refl, h, rfl⟩
  | settled _ _ _ _ => exact hmoves
  | @failedFor event q _ _ _ _ hdequeue _ =>
      have hphase : (q.setEvent event).phase = .running :=
        (sameStates_dequeue hdequeue).running hselected
      exact (hmoves.trans (.head (.dequeue hselected hdequeue) (.single (.select _ hphase)))).trans
        (moves_abort ((sameView_select (some event)).running hphase) _)
  | @enabledFor event q _ _ _ hdequeue _ =>
      have hphase : (q.setEvent event).phase = .running :=
        (sameStates_dequeue hdequeue).running hselected
      exact ⟨q.setEvent event, some event, hmoves.tail (.dequeue hselected hdequeue), hphase, rfl⟩

theorem sameRun_takeAll (ts : List TransitionRef) : SameRun s (s.takeAll ts) := by
  unfold takeAll
  split
  · exact .refl
  · exact sameRun_microstep ts

/-- A round that takes transitions takes them in moves. -/
theorem moves_takeAll {ts : List TransitionRef} (h : Round.FromMoves s (.take ts r)) :
    Moves s (r.takeAll ts) ∧ (r.takeAll ts).phase = .running := by
  obtain ⟨q, event, hq, hphase, hselect⟩ := h
  have hr : r = (q.select event).2 := by rw [hselect]
  have hts : ts = (q.select event).1 := by rw [hselect]
  subst hr hts
  refine ⟨?_, (sameRun_takeAll _).running ((sameView_select event).running hphase)⟩
  unfold takeAll
  split
  · exact hq.tail (.select event hphase)
  · exact hq.tail (.step event hphase)

theorem moves_settle (budget : Nat) (h : s.phase = .running) : Moves s (settle budget s).2 := by
  induction budget generalizing s with
  | zero =>
      have hround := fromMoves_round h
      unfold settle
      split
      · next result heq => rwa [heq] at hround
      · next ts r heq =>
        rw [heq] at hround
        -- halted between selecting and taking
        obtain ⟨q, event, hq, hphase, hselect⟩ := hround
        have hr : r = (q.select event).2 := by rw [hselect]
        subst hr
        exact (hq.tail (.select event hphase)).trans
          (moves_halt ((sameView_select event).running hphase))
  | succ budget ih =>
      have hround := fromMoves_round h
      unfold settle
      split
      · next result heq => rwa [heq] at hround
      · next ts r heq =>
        rw [heq] at hround
        obtain ⟨hmoves, hphase⟩ := moves_takeAll hround
        dsimp only
        split
        · exact hmoves.trans (moves_abort hphase _)
        · exact hmoves.trans (ih hphase)

/-- A macrostep that begins with transitions that were just selected. -/
theorem moves_macrostep_select (event : Option Event) (h : s.phase = .running) :
    Moves s ((s.select event).2.macrostep (s.select event).1).2 := by
  have hselected : (s.select event).2.phase = .running := (sameView_select event).running h
  have hmoves : Moves s (s.select event).2 := .single (.select event h)
  unfold macrostep
  split
  · exact hmoves.trans (moves_abort hselected _)
  -- Selecting and taking are one move, so the move is chosen where the branch is known.
  split
  · exact hmoves.trans (moves_settle _ hselected)
  split
  · exact hmoves.trans (moves_halt hselected)
  have hstep : Moves s ((s.select event).2.microstep (s.select event).1) :=
    .single (.step event h)
  have hphase := (sameRun_microstep (s.select event).1).running hselected
  dsimp only
  split
  · exact hstep.trans (moves_abort hphase _)
  · exact hstep.trans (moves_settle _ hphase)

theorem moves_start_begun (h : s.phase = .uninitialized) : Moves s.begun s.start.2 := by
  have hphase : s.begun.phase = .running := sameStates_begun.phase
  rw [start_of_uninitialized h]
  unfold macrostep
  split
  · exact moves_abort hphase _
  · exact moves_settle _ hphase

theorem moves_start : Moves s s.start.2 := by
  by_cases h : s.phase = .uninitialized
  · exact .head (.begin h) (moves_start_begun h)
  · rw [start_of_started h]

theorem moves_process (event : Event) (h : s.phase = .running) :
    Moves s (s.process event).2 := by
  have hreceive : Moves s (({ s with failedGuards := [] }).setEvent event) :=
    .single (.receive event h)
  have hphase : (({ s with failedGuards := [] }).setEvent event).phase = .running := h
  unfold process
  dsimp only
  split
  · have hselected := (sameView_select (some event)).running hphase
    have hselect := hreceive.tail (.select (some event) hphase)
    exact (hselect.tail (.restore _ hselected)).trans (moves_checkFinal hselected)
  · exact hreceive.trans (moves_macrostep_select (some event) hphase)

theorem moves_submit (event : Event) : Moves s (s.submit event).2 := by
  unfold submit
  split
  · exact .refl
  · exact .refl
  · next hfinal => exact .single (.ignore event hfinal)
  · next hrunning => exact moves_process event hrunning

theorem moves_call (c : Call) : Moves s (s.call c).2 := by
  cases c with
  | start => exact moves_start
  | submit event => exact moves_submit event

theorem moves_after (calls : List Call) : Moves s (s.after calls) := by
  induction calls generalizing s with
  | nil => exact .refl
  | cons c rest ih => exact (moves_call c).trans ih

/-! ## What moves keep -/

/-- A move keeps the model, the configuration and the evaluator. -/
structure SameChart (s r : Session) : Prop where
  model : r.model = s.model
  config : r.config = s.config
  evaluate : r.evaluate = s.evaluate

theorem SameRun.sameChart (h : SameRun s r) : SameChart s r := ⟨h.model, h.config, h.evaluate⟩

theorem SameChart.trans (h : SameChart s r) (h' : SameChart r q) : SameChart s q :=
  ⟨h'.model.trans h.model, h'.config.trans h.config, h'.evaluate.trans h.evaluate⟩

theorem Move.sameChart (h : Move s r) : SameChart s r := by
  cases h with
  | begin _ => exact ⟨sameStates_begun.model, sameStates_begun.config, sameStates_begun.evaluate⟩
  | receive event _ => exact ⟨rfl, rfl, rfl⟩
  | dequeue _ hdequeue =>
      exact ((sameStates_dequeue hdequeue).trans (sameStates_setEvent _)).sameChart
  | select event _ => exact (sameView_select event).sameChart
  | step event _ =>
      exact (sameView_select event).sameChart.trans (sameRun_microstep _).sameChart
  | restore v _ => exact ⟨rfl, rfl, rfl⟩
  | abort _ => exact ⟨rfl, rfl, rfl⟩
  | halt _ => exact ⟨rfl, rfl, rfl⟩
  | finish _ _ => exact ⟨rfl, rfl, rfl⟩
  | ignore event _ => exact (sameView_report _).sameChart

theorem Moves.sameChart (h : Moves s r) : SameChart s r := by
  induction h with
  | refl => exact ⟨rfl, rfl, rfl⟩
  | tail _ hmove ih => exact ih.trans hmove.sameChart

theorem started_of_running (h : s.phase = .running) : s.phase ≠ .uninitialized := by
  rw [h]
  exact Phase.noConfusion

/-- A started session stays started. -/
theorem Move.started (h : Move s r) : r.phase ≠ .uninitialized := by
  cases h with
  | begin _ =>
      rw [sameStates_begun.phase]
      exact Phase.noConfusion
  | receive event h => exact started_of_running h
  | dequeue h hdequeue =>
      rw [((sameStates_dequeue hdequeue).trans (sameStates_setEvent _)).phase]
      exact started_of_running h
  | select event h =>
      rw [(sameView_select event).phase]
      exact started_of_running h
  | step event h =>
      rw [(sameRun_microstep _).phase, (sameView_select event).phase]
      exact started_of_running h
  | restore v h => exact started_of_running h
  | abort h => exact started_of_running h
  | halt _ => exact Phase.noConfusion
  | finish _ _ => exact Phase.noConfusion
  | ignore event h => exact h ▸ Phase.noConfusion

theorem started_start : s.start.2.phase ≠ .uninitialized := by
  by_cases h : s.phase = .uninitialized
  · rcases Relation.ReflTransGen.cases_tail (moves_start_begun h) with heq | ⟨q, -, hmove⟩
    · rw [heq]
      exact (Move.begin h).started
    · exact hmove.started
  · rw [start_of_started h]
    exact h

theorem Moves.started (h : Moves s r) (hs : s.phase ≠ .uninitialized) :
    r.phase ≠ .uninitialized := by
  cases h with
  | refl => exact hs
  | tail _ hmove => exact hmove.started

end Session
end Statechart
