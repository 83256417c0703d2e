import Statechart.Engine.Selection
import Statechart.Engine.Macrostep

/-!
# What the operations of a session leave alone

Three frames, each narrower than the one before.

* `SameRun`: the model, the configuration, the evaluator and the phase are the
  same.  Whole microsteps stay in it.
* `SameStates`: the active states are the same as well.  Content of any kind
  stays in it, whether it succeeds or fails.
* `SameView`: the data model and the derived queue are the same as well.
  Selecting transitions stays in it, so all guards of one selection are
  evaluated on the same data.
-/

namespace Statechart
namespace Session

/-- Two sessions at two moments of one call, as far as the chart goes. -/
structure SameRun (s r : Session) : Prop where
  model : r.model = s.model
  config : r.config = s.config
  evaluate : r.evaluate = s.evaluate
  phase : r.phase = s.phase

/-- The active states are the same as well. -/
structure SameStates (s r : Session) : Prop extends SameRun s r where
  active : r.active = s.active

/-- Guards see the same, and no derived event was sent. -/
structure SameView (s r : Session) : Prop extends SameStates s r where
  data : r.data = s.data
  derived : r.derived = s.derived

variable {s r q : Session}

theorem SameRun.refl : SameRun s s := ⟨rfl, rfl, rfl, rfl⟩

theorem SameRun.trans (h : SameRun s r) (h' : SameRun r q) : SameRun s q :=
  ⟨h'.model.trans h.model, h'.config.trans h.config, h'.evaluate.trans h.evaluate,
    h'.phase.trans h.phase⟩

theorem SameRun.arena (h : SameRun s r) : r.arena = s.arena := congrArg Model.arena h.model

theorem SameStates.refl : SameStates s s := ⟨.refl, rfl⟩

theorem SameStates.trans (h : SameStates s r) (h' : SameStates r q) : SameStates s q :=
  ⟨h.toSameRun.trans h'.toSameRun, h'.active.trans h.active⟩

theorem SameView.refl : SameView s s := ⟨.refl, rfl, rfl⟩

theorem SameView.symm (h : SameView s r) : SameView r s :=
  ⟨⟨⟨h.model.symm, h.config.symm, h.evaluate.symm, h.phase.symm⟩, h.active.symm⟩, h.data.symm,
    h.derived.symm⟩

theorem SameView.trans (h : SameView s r) (h' : SameView r q) : SameView s q :=
  ⟨h.toSameStates.trans h'.toSameStates, h'.data.trans h.data, h'.derived.trans h.derived⟩

/-! ## Small steps -/

theorem sameView_note (entry : Note) : SameView s (s.note entry) :=
  ⟨⟨⟨rfl, rfl, rfl, rfl⟩, rfl⟩, rfl, rfl⟩

theorem sameView_report (report : Report) : SameView s (s.report report) :=
  ⟨⟨⟨rfl, rfl, rfl, rfl⟩, rfl⟩, rfl, rfl⟩

theorem sameView_raise (event : Event) : SameView s (s.raise event) :=
  ⟨⟨⟨rfl, rfl, rfl, rfl⟩, rfl⟩, rfl, rfl⟩

theorem sameStates_send (event : Event) : SameStates s (s.send event) :=
  ⟨⟨rfl, rfl, rfl, rfl⟩, rfl⟩

theorem sameStates_setEvent (event : Event) : SameStates s (s.setEvent event) :=
  ⟨⟨rfl, rfl, rfl, rfl⟩, rfl⟩

theorem sameView_fail (message : String) (error : ExecutionError) :
    SameView s (s.fail message error) := by
  unfold fail
  split
  · exact sameView_raise _
  · exact ⟨⟨⟨rfl, rfl, rfl, rfl⟩, rfl⟩, rfl, rfl⟩

/-! ## Content -/

theorem sameStates_foldl {α : Type} {step : Session → α → Session} (items : List α)
    (hstep : ∀ s item, SameStates s (step s item)) : SameStates s (items.foldl step s) := by
  induction items generalizing s with
  | nil => exact .refl
  | cons item rest ih => exact (hstep s item).trans ih

theorem sameStates_absorb (outcome : Outcome) : SameStates s (s.absorb outcome) := by
  have hraise : ∀ s event, SameStates s (raise s event) :=
    fun _ event => (sameView_raise event).toSameStates
  have htaken : SameStates s { s with
      data := outcome.data
      reports := s.reports.pushAll outcome.reports
      output := s.output ++ outcome.output
      completion := outcome.completion.or s.completion } := ⟨⟨rfl, rfl, rfl, rfl⟩, rfl⟩
  exact htaken.trans ((sameStates_foldl _ hraise).trans
    (sameStates_foldl _ fun _ event => sameStates_send event))

theorem foldl_raise (events : List Event) :
    events.foldl raise s =
      { s with
        internal := s.internal ++ events
        journal := (events.map (.queued .internal)).reverse ++ s.journal } := by
  induction events generalizing s with
  | nil => simp
  | cons event rest ih => rw [List.foldl_cons, ih]; simp [raise, note]

theorem foldl_send (events : List Event) :
    events.foldl send s =
      { s with
        derived := s.derived ++ events
        journal := (events.map (.queued .derived)).reverse ++ s.journal } := by
  induction events generalizing s with
  | nil => simp
  | cons event rest ih => rw [List.foldl_cons, ih]; simp [send, note]

/-- Taking over what a block did, field by field. -/
theorem absorb_eq (outcome : Outcome) :
    s.absorb outcome =
      { s with
        data := outcome.data
        internal := s.internal ++ outcome.raised
        derived := s.derived ++ outcome.sent
        reports := s.reports.pushAll outcome.reports
        output := s.output ++ outcome.output
        completion := outcome.completion.or s.completion
        journal := (outcome.sent.map (.queued .derived)).reverse ++
          ((outcome.raised.map (.queued .internal)).reverse ++ s.journal) } := by
  rw [absorb, foldl_raise, foldl_send]

/-- A block is heard of in the journal only through the events that it queues. -/
theorem filterMap_journal_absorb {β : Type} {f : Note → Option β}
    (hf : ∀ queue event, f (.queued queue event) = none) (outcome : Outcome) :
    (s.absorb outcome).journal.filterMap f = s.journal.filterMap f := by
  have hqueued (queue : Queue) (events : List Event) :
      (events.map (Note.queued queue)).reverse.filterMap f = [] := by
    refine List.filterMap_eq_nil_iff.2 fun entry hentry => ?_
    obtain ⟨event, -, rfl⟩ := List.mem_map.1 (List.mem_reverse.1 hentry)
    exact hf queue event
  rw [absorb_eq, List.filterMap_append, List.filterMap_append, hqueued, hqueued, List.nil_append,
    List.nil_append]

/-- Content never touches the active states, also when it fails. -/
theorem sameStates_runContent (block : Block) (state : Nat) (actions : List Action) :
    SameStates s (s.runContent block state actions) := by
  unfold runContent
  split
  · exact .refl
  have hnote := (sameView_note (s := s) (.ran block s.active)).toSameStates
  dsimp only
  split
  · exact hnote
  have habsorb := hnote.trans (sameStates_absorb (Action.runBlock
    ⟨s.data, s.evaluate, (s.arena.state state).id⟩ actions))
  split
  · exact habsorb
  · exact habsorb.trans
      (((sameView_note _).trans ((sameView_report _).trans (sameView_fail _ _))).toSameStates)

theorem sameStates_act (t : TransitionRef) : SameStates s (s.act t) :=
  sameStates_runContent _ _ _

/-! ## Selection -/

theorem sameView_guardFailed (t : TransitionRef) (cond : String) (error : ExpressionError) :
    SameView s (s.guardFailed t cond error) := by
  have hfirst : SameView s { s with failedGuards := t :: s.failedGuards } :=
    ⟨⟨⟨rfl, rfl, rfl, rfl⟩, rfl⟩, rfl, rfl⟩
  exact hfirst.trans ((sameView_note _).trans ((sameView_report _).trans (sameView_fail _ _)))

theorem sameView_guardHolds (t : TransitionRef) (cond : Option String) :
    SameView s (s.guardHolds t cond).2 := by
  unfold guardHolds
  split
  · exact .refl
  · split
    · exact .refl
    · split
      · exact .refl
      · exact sameView_guardFailed _ _ _

theorem sameView_chooseAt (event : Option Event) (source position : Nat)
    (ts : List Transition) : SameView s (s.chooseAt event source position ts).2 := by
  induction ts generalizing s position with
  | nil => exact .refl
  | cons t rest ih =>
      unfold chooseAt
      split
      · have hguard := sameView_guardHolds (s := s) ⟨source, position⟩ t.cond
        split
        · next heq => rw [heq] at hguard; exact hguard
        · next heq => rw [heq] at hguard; exact hguard.trans (ih (position + 1))
      · exact ih (position + 1)

theorem sameView_chooseAlong (event : Option Event) (path : List Nat) :
    SameView s (s.chooseAlong event path).2 := by
  induction path generalizing s with
  | nil => exact .refl
  | cons source rest ih =>
      have hat := sameView_chooseAt (s := s) event source 0 (s.arena.state source).transitions
      unfold chooseAlong
      split
      · next heq => rw [heq] at hat; exact hat
      · next heq => rw [heq] at hat; exact hat.trans ih

theorem sameView_chooseAll (event : Option Event) (chosen : List TransitionRef)
    (leaves : List Nat) : SameView s (s.chooseAll event chosen leaves).2 := by
  induction leaves generalizing s chosen with
  | nil => exact .refl
  | cons leaf rest ih =>
      have halong := sameView_chooseAlong (s := s) event (leaf :: s.arena.ancestors leaf)
      unfold chooseAll
      split
      · next heq => rw [heq] at halong; exact halong.trans (ih chosen)
      · next heq => rw [heq] at halong; exact halong.trans (ih _)

theorem sameView_select (event : Option Event) : SameView s (s.select event).2 :=
  (sameView_chooseAll event [] s.leaves).trans (sameView_note _)

end Session
end Statechart
