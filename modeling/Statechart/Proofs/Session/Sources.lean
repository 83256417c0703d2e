import Statechart.Proofs.Session.Failure

/-!
# Where events come from

Every event in a queue has its source in an operation of the call.  A block raises
internal events and sends derived ones, a completion raises one event, and so does a
failure that is skipped.  `eventsOf` says which events these are for one operation,
and it does not look into the journal.  The journal of the operation tells of just
them, in this order (`puts_perform`).

So the events that a call puts into a queue are those of its operations, and the
events that it takes out are the first of them (`events_of_call`).
-/

namespace Statechart

/-- The events that a failure is raised as under a policy. -/
def Fault.raisedUnder : ErrorPolicy → Fault → List Event
  | .skip, fault => [fault.event]
  | .abort, _ => []

theorem Note.IsFailure.queued?_eq_none {note : Note} (h : note.IsFailure) (queue : Queue) :
    note.queued? queue = none := by
  cases note <;> first | rfl | exact h.elim

theorem queuedEvents_reverse_map (queue other : Queue) (events : List Event) :
    queuedEvents queue (events.map (.queued other)).reverse =
      if other = queue then events else [] := by
  induction events with
  | nil => exact (ite_self []).symm
  | cons event rest ih =>
      rw [List.map_cons, List.reverse_cons, queuedEvents_append, ih, queuedEvents_queued]
      split <;> rfl

namespace Session

/-- The derived events of an operation. -/
def sentEvents (s : Session) : Operation → List Event
  | .run block => if s.pending.isSome then [] else (s.outcome block).sent
  | _ => []

/-- The event that a fresh failure of an operation is raised as, if failures are
skipped. -/
def faultEvents (s : Session) (op : Operation) : List Event :=
  (s.freshFault? op).toList.flatMap (Fault.raisedUnder s.config.policy)

/-- The events of an operation, apart from the one for its failure. -/
def quietEvents (s : Session) (op : Operation) : Queue → List Event
  | .internal => s.ownEvents op
  | .derived => s.sentEvents op

/-- The events that an operation puts into a queue. -/
def eventsOf (s : Session) (op : Operation) : Queue → List Event
  | .internal => s.ownEvents op ++ s.faultEvents op
  | .derived => s.sentEvents op

/-- The events that some operations put into a queue, one after the other. -/
def eventsOfAll (s : Session) : List Operation → Queue → List Event
  | [], _ => []
  | op :: rest, queue => s.eventsOf op queue ++ (s.perform op).eventsOfAll rest queue

/-- Between two sessions the journal tells of these events put into the queues. -/
def Puts (s : Session) (events : Queue → List Event) (r : Session) : Prop :=
  ∃ notes, r.journal = notes ++ s.journal ∧ ∀ queue, queuedEvents queue notes = events queue

variable {s r q : Session} {c : Call} {op : Operation} {ops : List Operation}
  {events later : Queue → List Event} {fault : Fault} {note : Note}

theorem puts_nil (h : r.journal = s.journal) : Puts s (fun _ => []) r := ⟨[], h, fun _ => rfl⟩

/-- A note about anything else than a new event. -/
theorem puts_note (hnote : ∀ queue, note.queued? queue = none)
    (h : r.journal = note :: s.journal) : Puts s (fun _ => []) r :=
  ⟨[note], h, fun queue => queuedEvents_cons_of_none (hnote queue)⟩

theorem Puts.trans (h : Puts s events r) (h' : Puts r later q) :
    Puts s (fun queue => events queue ++ later queue) q := by
  obtain ⟨notes, hjournal, hevents⟩ := h
  obtain ⟨notes', hjournal', hlater⟩ := h'
  refine ⟨notes' ++ notes, by rw [hjournal', hjournal, List.append_assoc], fun queue => ?_⟩
  rw [queuedEvents_append, hevents, hlater]

theorem Puts.congr (h : Puts s events r) (heq : ∀ queue, events queue = later queue) :
    Puts s later r := by
  obtain rfl : events = later := funext heq
  exact h

/-! ## One operation -/

/-- A block first raises its internal events and then sends the derived ones. -/
theorem puts_afterActions (block : Block) :
    Puts s (fun
      | .internal => (s.outcome block).raised
      | .derived => (s.outcome block).sent) (s.afterActions block) := by
  refine ⟨((s.outcome block).sent.map (.queued .derived)).reverse ++
    (((s.outcome block).raised.map (.queued .internal)).reverse ++ [.ran block s.active]),
    ?_, fun queue => ?_⟩
  · rw [afterActions, absorb_eq]
    simp [note]
  · rw [queuedEvents_append, queuedEvents_append, queuedEvents_reverse_map,
      queuedEvents_reverse_map, queuedEvents_cons_of_none rfl]
    cases queue with
    | internal => exact List.append_nil _
    | derived => rfl

theorem puts_performQuietly : Puts s (s.quietEvents op) (s.performQuietly op) := by
  -- all operations but blocks and completions put nothing into the queues
  have hnone (h : s.ownEvents op = [] ∧ s.sentEvents op = []) (queue : Queue) :
      [] = s.quietEvents op queue := by
    cases queue with
    | internal => exact h.1.symm
    | derived => exact h.2.symm
  cases op with
  | run block =>
      by_cases hbusy : s.pending.isSome = true
      · have hquietly : s.performQuietly (.run block) = s := if_pos hbusy
        rw [hquietly]
        exact (puts_nil rfl).congr (hnone ⟨if_pos hbusy, if_pos hbusy⟩)
      · have hquietly : s.performQuietly (.run block) = s.afterActions block := if_neg hbusy
        rw [hquietly]
        refine (puts_afterActions block).congr fun queue => ?_
        cases queue with
        | internal => exact (if_neg hbusy).symm
        | derived => exact (if_neg hbusy).symm
  | complete i =>
      refine ⟨[.queued .internal (.completion (s.arena.state i).id), .completed i s.active], rfl,
        fun queue => ?_⟩
      cases queue <;> rfl
  | dequeue =>
      -- the event that is taken is noted, but it is not a new one
      refine Puts.congr ?_ (hnone ⟨rfl, rfl⟩)
      cases s with
      | mk _ _ _ _ _ _ internal derived _ _ _ _ _ _ _ =>
          cases internal with
          | cons _ _ => exact puts_note (fun _ => rfl) rfl
          | nil =>
              cases derived with
              | cons _ _ => exact puts_note (fun _ => rfl) rfl
              | nil => exact puts_nil rfl
  | select event ts => exact (puts_note (fun _ => rfl) rfl).congr (hnone ⟨rfl, rfl⟩)
  | take ts => exact (puts_note (fun _ => rfl) rfl).congr (hnone ⟨rfl, rfl⟩)
  | leave i => exact (puts_note (fun _ => rfl) rfl).congr (hnone ⟨rfl, rfl⟩)
  | arrive i => exact (puts_note (fun _ => rfl) rfl).congr (hnone ⟨rfl, rfl⟩)
  | _ => exact (puts_nil rfl).congr (hnone ⟨rfl, rfl⟩)

/-- A failure is noted, and then it is raised if failures are skipped. -/
theorem puts_suffer (hnote : note.IsFailure) :
    Puts s (fun
      | .internal => fault.raisedUnder s.config.policy
      | .derived => []) (s.suffer op note fault) := by
  cases hpolicy : s.config.policy with
  | skip =>
      rw [suffer_of_skip hpolicy]
      refine ⟨[.queued .internal fault.event, note], rfl, fun queue => ?_⟩
      rw [queuedEvents_queued, queuedEvents_cons_of_none (hnote.queued?_eq_none queue)]
      cases queue <;> rfl
  | abort =>
      rw [suffer_of_abort hpolicy]
      refine (puts_note hnote.queued?_eq_none rfl).congr fun queue => ?_
      cases queue <;> rfl

/-- An operation puts its own events into the queues, and behind them the one for its
fresh failure if failures are skipped. -/
theorem puts_perform : Puts s (s.eventsOf op) (s.perform op) := by
  have hquietly : Puts s (s.quietEvents op) (s.performQuietly op) := puts_performQuietly
  cases hfault : s.freshFault? op with
  | none =>
      rw [perform_of_none hfault]
      refine hquietly.congr fun queue => ?_
      cases queue with
      | internal =>
          rw [quietEvents, eventsOf, faultEvents, hfault]
          exact (List.append_nil _).symm
      | derived => rfl
  | some fault =>
      obtain ⟨note, hnote, heq⟩ := perform_of_some hfault
      have hpolicy : (s.performQuietly op).config.policy = s.config.policy := by
        rw [sameChart_performQuietly.config]
      rw [heq]
      refine (hquietly.trans (puts_suffer hnote)).congr fun queue => ?_
      cases queue with
      | internal =>
          rw [hpolicy, eventsOf, faultEvents, hfault]
          exact congrArg _ (List.append_nil _).symm
      | derived => exact List.append_nil _

/-! ## A whole call -/

theorem puts_performAll : Puts s (s.eventsOfAll ops) (s.performAll ops) := by
  induction ops generalizing s with
  | nil => exact puts_nil rfl
  | cons op rest ih => exact puts_perform.trans ih

/-- The events that a call puts into a queue are those of its operations, in the
order in which these are performed.  Those that it takes out are the first of them, and
all of them if it succeeds and the session goes on running. -/
theorem events_of_call (h : s.Held) (c : Call) :
    ∃ ops notes, Course s c ops (s.call c) ∧ (s.call c).2.journal = notes ++ s.journal ∧
      ∀ queue, queuedEvents queue notes = s.eventsOfAll ops queue ∧
        dequeuedEvents queue notes <+: s.eventsOfAll ops queue ∧
        ((s.call c).1 = none → (s.call c).2.phase = .running →
          dequeuedEvents queue notes = s.eventsOfAll ops queue) := by
  obtain ⟨ops, hcourse⟩ := exists_course h.atRest c
  obtain ⟨phase, hclosed⟩ := hcourse.exists_eq_closed h.atRest
  have hputs : Puts s (s.eventsOfAll ops) (s.performAll ops) := puts_performAll
  obtain ⟨notes, hjournal, hevents⟩ := hputs
  obtain ⟨r, ⟨logged, hlogs⟩, hcloses⟩ := accounted_call c h.atRest.waiting
  have hcall : (s.call c).2.journal = notes ++ s.journal := by rw [hclosed, ← hjournal]; rfl
  -- both accounts of the call are about the same notes
  obtain rfl : logged = notes :=
    List.append_cancel_right ((hcloses.journal.trans hlogs.journal).symm.trans hcall)
  have hbalance (queue : Queue) :
      s.eventsOfAll ops queue = dequeuedEvents queue logged ++ r.waiting queue := by
    rw [← hevents, ← hlogs.balance, h.atRest.waiting, List.nil_append]
  refine ⟨ops, logged, hcourse, hcall, fun queue => ⟨hevents queue, ?_, fun hok hrunning => ?_⟩⟩
  · exact ⟨r.waiting queue, (hbalance queue).symm⟩
  · rw [hbalance, hcloses.complete hok hrunning, List.append_nil]

end Session
end Statechart
