import Statechart.Proofs.Session.Stability

/-!
# The event queues

The journal says when an event is put into a queue and when one is taken out.
`Logs s notes r` reads the notes between two sessions as an account of both
queues: what waited in a queue and what was put into it is, in this order, what
was taken out of it and what waits now.  Every operation of the engine keeps
such an account, and accounts of consecutive operations add up (`Logs.trans`).

A call begins and ends with empty queues, so the account of a whole call that
settles says that the events leave a queue exactly as they entered it
(`queues_in_order`).  A call that ends early throws away what waits, and then
only a first part of the events has left.

Which transitions an event enables plays no part here, and neither does the
model.
-/

namespace Statechart

/-- The event that a note says was put into a queue. -/
def Note.queued? (queue : Queue) : Note → Option Event
  | .queued q event => if q = queue then some event else none
  | _ => none

/-- The event that a note says was taken from a queue. -/
def Note.dequeued? (queue : Queue) : Note → Option Event
  | .dequeued q event => if q = queue then some event else none
  | _ => none

/-- The events that were put into a queue, in the order of time.  Notes are in
the order of the journal, newest first. -/
def queuedEvents (queue : Queue) (notes : List Note) : List Event :=
  (notes.filterMap (Note.queued? queue)).reverse

/-- The events that were taken from a queue, in the order of time. -/
def dequeuedEvents (queue : Queue) (notes : List Note) : List Event :=
  (notes.filterMap (Note.dequeued? queue)).reverse

section Notes

variable {queue other : Queue} {event : Event} {earlier later : List Note}

@[simp] theorem queuedEvents_append :
    queuedEvents queue (later ++ earlier) =
      queuedEvents queue earlier ++ queuedEvents queue later := by
  simp [queuedEvents]

@[simp] theorem dequeuedEvents_append :
    dequeuedEvents queue (later ++ earlier) =
      dequeuedEvents queue earlier ++ dequeuedEvents queue later := by
  simp [dequeuedEvents]

@[simp] theorem queuedEvents_queued :
    queuedEvents queue (.queued other event :: earlier) =
      queuedEvents queue earlier ++ if other = queue then [event] else [] := by
  by_cases h : other = queue <;> simp [queuedEvents, Note.queued?, h]

@[simp] theorem dequeuedEvents_dequeued :
    dequeuedEvents queue (.dequeued other event :: earlier) =
      dequeuedEvents queue earlier ++ if other = queue then [event] else [] := by
  by_cases h : other = queue <;> simp [dequeuedEvents, Note.dequeued?, h]

theorem queuedEvents_cons_of_none {entry : Note} (h : entry.queued? queue = none) :
    queuedEvents queue (entry :: earlier) = queuedEvents queue earlier := by
  simp [queuedEvents, h]

theorem dequeuedEvents_cons_of_none {entry : Note} (h : entry.dequeued? queue = none) :
    dequeuedEvents queue (entry :: earlier) = dequeuedEvents queue earlier := by
  simp [dequeuedEvents, h]

/-- A derived event is taken only when all internal ones have been, and right
after nothing was found to do without an event.  The given internal events
waited at the beginning. -/
def DerivedLast (internal : List Event) (notes : List Note) : Prop :=
  ∀ later event earlier, notes = later ++ .dequeued .derived event :: earlier →
    dequeuedEvents .internal earlier = internal ++ queuedEvents .internal earlier ∧
      ∃ before, earlier = .selected none [] :: before

variable {internal internal' : List Event}

theorem derivedLast_nil : DerivedLast internal [] := by
  intro later event earlier h
  simp at h

theorem DerivedLast.cons {entry : Note} (h : DerivedLast internal earlier)
    (hentry : ∀ event, entry = .dequeued .derived event →
      dequeuedEvents .internal earlier = internal ++ queuedEvents .internal earlier ∧
        ∃ before, earlier = .selected none [] :: before) :
    DerivedLast internal (entry :: earlier) := by
  intro later event rest hsplit
  cases later with
  | nil =>
      obtain ⟨rfl, rfl⟩ := List.cons.inj hsplit
      exact hentry event rfl
  | cons _ later => exact h later event rest (List.cons.inj hsplit).2

theorem DerivedLast.cons_of_none {entry : Note} (h : DerivedLast internal earlier)
    (hentry : entry.dequeued? .derived = none) : DerivedLast internal (entry :: earlier) := by
  refine h.cons fun event heq => ?_
  rw [heq] at hentry
  cases hentry

/-- The internal events that wait in between are those that the earlier notes
leave. -/
theorem DerivedLast.append (h : DerivedLast internal earlier) (h' : DerivedLast internal' later)
    (hbalance : internal ++ queuedEvents .internal earlier =
      dequeuedEvents .internal earlier ++ internal') :
    DerivedLast internal (later ++ earlier) := by
  induction later with
  | nil => exact h
  | cons entry later ih =>
      have hlater : DerivedLast internal' later := fun last event first hsplit =>
        h' (entry :: last) event first (congrArg (entry :: ·) hsplit)
      refine (ih hlater).cons fun event heq => ?_
      obtain ⟨htaken, before, hbefore⟩ := h' [] event later (congrArg (· :: later) heq)
      refine ⟨?_, before ++ earlier, congrArg (· ++ earlier) hbefore⟩
      rw [dequeuedEvents_append, htaken, queuedEvents_append, ← List.append_assoc, ← hbalance,
        List.append_assoc]

end Notes

namespace Session

/-- The events that wait in a queue. -/
def waiting (s : Session) : Queue → List Event
  | .internal => s.internal
  | .derived => s.derived

/-- The notes between two sessions account for both queues. -/
structure Logs (s : Session) (notes : List Note) (r : Session) : Prop where
  journal : r.journal = notes ++ s.journal
  balance : ∀ queue, s.waiting queue ++ queuedEvents queue notes =
    dequeuedEvents queue notes ++ r.waiting queue
  derivedLast : DerivedLast s.internal notes

/-- Some notes account for what happened between two sessions. -/
def Logged (s r : Session) : Prop := ∃ notes, Logs s notes r

variable {s r q : Session} {notes notes' : List Note}

namespace Logs

/-- What touches neither the journal nor a queue needs no note. -/
theorem of_eq (hjournal : r.journal = s.journal) (hinternal : r.internal = s.internal)
    (hderived : r.derived = s.derived) : Logs s [] r where
  journal := hjournal
  balance queue := by cases queue <;> simp [waiting, queuedEvents, dequeuedEvents, *]
  derivedLast := derivedLast_nil

/-- A single note, unless it is about taking an event. -/
theorem single {entry : Note} (hentry : ∀ queue, entry.dequeued? queue = none)
    (hjournal : r.journal = entry :: s.journal)
    (hwaiting : ∀ queue, r.waiting queue = s.waiting queue ++ queuedEvents queue [entry]) :
    Logs s [entry] r where
  journal := hjournal
  balance queue := by
    rw [dequeuedEvents_cons_of_none (hentry queue), hwaiting]
    rfl
  derivedLast := derivedLast_nil.cons_of_none (hentry .derived)

theorem trans (h : Logs s notes r) (h' : Logs r notes' q) : Logs s (notes' ++ notes) q where
  journal := by rw [h'.journal, h.journal, List.append_assoc]
  balance queue := by
    rw [queuedEvents_append, dequeuedEvents_append, ← List.append_assoc, h.balance,
      List.append_assoc, h'.balance, List.append_assoc]
  derivedLast := h.derivedLast.append h'.derivedLast (h.balance .internal)

end Logs

theorem Logged.refl : Logged s s := ⟨[], .of_eq rfl rfl rfl⟩

theorem Logged.trans (h : Logged s r) (h' : Logged r q) : Logged s q := by
  obtain ⟨notes, h⟩ := h
  obtain ⟨notes', h'⟩ := h'
  exact ⟨notes' ++ notes, h.trans h'⟩

/-! ## Small steps -/

theorem logs_note (entry : Note) (hqueued : ∀ queue, entry.queued? queue = none)
    (hdequeued : ∀ queue, entry.dequeued? queue = none) : Logs s [entry] (s.note entry) := by
  refine .single hdequeued rfl fun queue => ?_
  rw [queuedEvents_cons_of_none (hqueued queue)]
  exact (List.append_nil _).symm

theorem logged_note (entry : Note) (hqueued : ∀ queue, entry.queued? queue = none)
    (hdequeued : ∀ queue, entry.dequeued? queue = none) : Logged s (s.note entry) :=
  ⟨[entry], logs_note entry hqueued hdequeued⟩

theorem logged_report (report : Report) : Logged s (s.report report) := ⟨[], .of_eq rfl rfl rfl⟩

theorem logged_raise (event : Event) : Logged s (s.raise event) := by
  refine ⟨[.queued .internal event], .single (fun _ => rfl) rfl fun queue => ?_⟩
  cases queue with
  | internal => rfl
  | derived => exact (List.append_nil _).symm

theorem logged_send (event : Event) : Logged s (s.send event) := by
  refine ⟨[.queued .derived event], .single (fun _ => rfl) rfl fun queue => ?_⟩
  cases queue with
  | internal => exact (List.append_nil _).symm
  | derived => rfl

theorem logged_fail (message : String) (error : ExecutionError) :
    Logged s (s.fail message error) := by
  unfold fail
  split
  · exact logged_raise _
  · exact ⟨[], .of_eq rfl rfl rfl⟩

theorem logged_foldl {α : Type} {step : Session → α → Session}
    (hstep : ∀ s item, Logged s (step s item)) (items : List α) :
    Logged s (items.foldl step s) := by
  induction items generalizing s with
  | nil => exact .refl
  | cons item rest ih => exact (hstep s item).trans ih

/-! ## Content and selection -/

theorem logged_absorb (outcome : Outcome) : Logged s (s.absorb outcome) := by
  have htaken : Logged s { s with
      data := outcome.data
      reports := s.reports.pushAll outcome.reports
      output := s.output ++ outcome.output
      completion := outcome.completion.or s.completion } := ⟨[], .of_eq rfl rfl rfl⟩
  have hraised := htaken.trans (logged_foldl (fun _ event => logged_raise event) outcome.raised)
  exact hraised.trans (logged_foldl (fun _ event => logged_send event) outcome.sent)

theorem logged_runContent (block : Block) (state : Nat) (actions : List Action) :
    Logged s (s.runContent block state actions) := by
  unfold runContent
  split
  · exact .refl
  have hnote : Logged s (s.note (.ran block s.active)) :=
    logged_note _ (fun _ => rfl) fun _ => rfl
  dsimp only
  split
  · exact hnote
  have habsorb := hnote.trans (logged_absorb (Action.runBlock
    ⟨s.data, s.evaluate, (s.arena.state state).id⟩ actions))
  split
  · exact habsorb
  · next error _ =>
    have hfailed := habsorb.trans
      (logged_note (.blockFailed block error) (fun _ => rfl) fun _ => rfl)
    exact hfailed.trans ((logged_report _).trans (logged_fail _ _))

theorem logged_guardFailed (t : TransitionRef) (cond : String) (error : ExpressionError) :
    Logged s (s.guardFailed t cond error) := by
  have hfirst : Logged s { s with failedGuards := t :: s.failedGuards } :=
    ⟨[], .of_eq rfl rfl rfl⟩
  have hnote := hfirst.trans (logged_note (.guardFailed t error) (fun _ => rfl)
    fun _ => rfl)
  exact hnote.trans ((logged_report _).trans (logged_fail _ _))

theorem logged_guardHolds (t : TransitionRef) (cond : Option String) :
    Logged s (s.guardHolds t cond).2 := by
  unfold guardHolds
  split
  · exact .refl
  · split
    · exact .refl
    · split
      · exact .refl
      · exact logged_guardFailed _ _ _

theorem logged_chooseAt (event : Option Event) (source position : Nat) (ts : List Transition) :
    Logged s (s.chooseAt event source position ts).2 := by
  induction ts generalizing s position with
  | nil => exact .refl
  | cons t rest ih =>
      unfold chooseAt
      split
      · have hguard := logged_guardHolds (s := s) ⟨source, position⟩ t.cond
        split
        · next heq => rw [heq] at hguard; exact hguard
        · next heq => rw [heq] at hguard; exact hguard.trans (ih (position + 1))
      · exact ih (position + 1)

theorem logged_chooseAlong (event : Option Event) (path : List Nat) :
    Logged s (s.chooseAlong event path).2 := by
  induction path generalizing s with
  | nil => exact .refl
  | cons source rest ih =>
      have hat := logged_chooseAt (s := s) event source 0 (s.arena.state source).transitions
      unfold chooseAlong
      split
      · next heq => rw [heq] at hat; exact hat
      · next heq => rw [heq] at hat; exact hat.trans ih

theorem logged_chooseAll (event : Option Event) (chosen : List TransitionRef)
    (leaves : List Nat) : Logged s (s.chooseAll event chosen leaves).2 := by
  induction leaves generalizing s chosen with
  | nil => exact .refl
  | cons leaf rest ih =>
      have halong := logged_chooseAlong (s := s) event (leaf :: s.arena.ancestors leaf)
      unfold chooseAll
      split
      · next heq => rw [heq] at halong; exact halong.trans (ih chosen)
      · next heq => rw [heq] at halong; exact halong.trans (ih _)

/-- The last note of a selection says what was selected. -/
theorem logs_select (event : Option Event) :
    ∃ notes, Logs s (.selected event (s.select event).1 :: notes) (s.select event).2 := by
  obtain ⟨notes, hchoose⟩ := logged_chooseAll (s := s) event [] s.leaves
  exact ⟨notes, hchoose.trans (logs_note _ (fun _ => rfl) fun _ => rfl)⟩

theorem logged_select (event : Option Event) : Logged s (s.select event).2 := by
  obtain ⟨notes, h⟩ := logs_select (s := s) event
  exact ⟨_, h⟩

/-! ## Microsteps -/

theorem logged_complete (i : Nat) : Logged s (s.complete i) :=
  Logged.trans (logged_note _ (fun _ => rfl) fun _ => rfl) (logged_raise _)

theorem logged_enteredFinal (parent : Nat) : Logged s (s.enteredFinal parent) := by
  unfold enteredFinal
  split
  · exact ⟨[], .of_eq rfl rfl rfl⟩
  · have hfirst := logged_complete (s := s) parent
    dsimp only
    split
    · exact hfirst
    · split
      · exact hfirst.trans (logged_complete _)
      · exact hfirst

theorem logged_enter (i : Nat) : Logged s (s.enter i) := by
  unfold enter
  split
  · exact .refl
  have hinsert : Logged s { s with active := s.active.insert i } := ⟨[], .of_eq rfl rfl rfl⟩
  have hnote := hinsert.trans (logged_note (.entered i) (fun _ => rfl) fun _ => rfl)
  have hcontent := hnote.trans (logged_runContent (.onEntry i) i (s.arena.state i).onEntry)
  dsimp only
  split
  · split
    · exact hcontent
    · exact hcontent.trans (logged_enteredFinal _)
  · exact hcontent

theorem logged_exit (i : Nat) : Logged s (s.exit i) := by
  have hcontent := logged_runContent (s := s) (.onExit i) i (s.arena.state i).onExit
  have herase : Logged (s.runContent (.onExit i) i (s.arena.state i).onExit)
      { s.runContent (.onExit i) i (s.arena.state i).onExit with
        active := (s.runContent (.onExit i) i (s.arena.state i).onExit).active.erase i } :=
    ⟨[], .of_eq rfl rfl rfl⟩
  exact (hcontent.trans herase).trans (logged_note _ (fun _ => rfl) fun _ => rfl)

theorem logged_act (t : TransitionRef) : Logged s (s.act t) := logged_runContent _ _ _

theorem logged_microstep (ts : List TransitionRef) : Logged s (s.microstep ts) := by
  have hnote : Logged s (s.note (.stepped ts)) := logged_note _ (fun _ => rfl) fun _ => rfl
  have hexits := hnote.trans (logged_foldl (fun _ i => logged_exit i)
    (s.arena.exitSets s.active ts).reverse)
  have hacts := hexits.trans (logged_foldl (fun _ t => logged_act t) ts)
  exact hacts.trans (logged_foldl (fun _ i => logged_enter i) _)

theorem logged_takeAll (ts : List TransitionRef) : Logged s (s.takeAll ts) := by
  unfold takeAll
  split
  · exact .refl
  · exact logged_microstep ts

/-- An event is taken right after a selection that found nothing, and a derived
one only if no internal one waits. -/
theorem logs_dequeue {event : Event} (h : Logs s (.selected none [] :: notes) r)
    (hdequeue : r.dequeue = some (event, q)) :
    ∃ queue, Logs s (.dequeued queue event :: .selected none [] :: notes) q := by
  unfold dequeue at hdequeue
  split at hdequeue
  · next first rest hinternal =>
    obtain ⟨rfl, rfl⟩ := Prod.mk.inj (Option.some.inj hdequeue)
    refine ⟨.internal, congrArg (_ :: ·) h.journal, fun queue => ?_,
      h.derivedLast.cons_of_none rfl⟩
    rw [queuedEvents_cons_of_none rfl, dequeuedEvents_dequeued, h.balance]
    cases queue with
    | internal => simp [waiting, note, hinternal]
    | derived => simp [waiting, note]
  · next first rest hinternal hderived =>
    obtain ⟨rfl, rfl⟩ := Prod.mk.inj (Option.some.inj hdequeue)
    refine ⟨.derived, congrArg (_ :: ·) h.journal, fun queue => ?_,
      h.derivedLast.cons fun _ _ => ⟨?_, notes, rfl⟩⟩
    · rw [queuedEvents_cons_of_none rfl, dequeuedEvents_dequeued, h.balance]
      cases queue with
      | internal => simp [waiting, note]
      | derived => simp [waiting, note, hderived]
    · have hbalance := h.balance .internal
      rwa [waiting, waiting, hinternal, List.append_nil, eq_comm] at hbalance
  · cases hdequeue

/-! ## The end of a call -/

/-- A call ends here: the queues are emptied, and if it succeeds and the session
goes on running, there was nothing left in them. -/
structure Closes (r : Session) (result : Result) : Prop where
  journal : result.2.journal = r.journal
  empty : ∀ queue, result.2.waiting queue = []
  complete : result.1 = none → result.2.phase = .running → ∀ queue, r.waiting queue = []

/-- The notes of a call account for the queues up to its end. -/
def Accounted (s : Session) (result : Result) : Prop := ∃ r, Logged s r ∧ Closes r result

theorem Logged.trans_accounted {result : Result} (h : Logged s r) (h' : Accounted r result) :
    Accounted s result := by
  obtain ⟨q, hq, hcloses⟩ := h'
  exact ⟨q, h.trans hq, hcloses⟩

/-- A session with empty queues can be what a call leaves. -/
theorem accounted_self (error : Option ExecutionError) (h : ∀ queue, s.waiting queue = []) :
    Accounted s (error, s) :=
  ⟨s, .refl, rfl, h, fun _ _ => h⟩

@[simp] theorem waiting_clearQueues (queue : Queue) : s.clearQueues.waiting queue = [] := by
  cases queue <;> rfl

theorem waiting_checkFinal (h : ∀ queue, s.waiting queue = []) (queue : Queue) :
    s.checkFinal.waiting queue = [] := by
  unfold checkFinal
  split
  · exact waiting_clearQueues queue
  · exact h queue

theorem journal_checkFinal : s.checkFinal.journal = s.journal := by
  unfold checkFinal
  split <;> rfl

theorem accounted_abort (error : ExecutionError) : Accounted s (s.abort error) := by
  refine ⟨s, .refl, journal_checkFinal, waiting_checkFinal waiting_clearQueues, fun hok => ?_⟩
  cases hok

theorem accounted_halt : Accounted s s.halt := by
  refine ⟨s, .refl, rfl, waiting_clearQueues, fun hok => ?_⟩
  cases hok

/-- Whatever waits when the chart is complete is thrown away. -/
theorem accounted_checkFinal (h : s.isFinalConfiguration ∨ ∀ queue, s.waiting queue = []) :
    Accounted s (none, s.checkFinal) := by
  by_cases hfinal : s.isFinalConfiguration
  · have heq : s.checkFinal = { s with phase := .final }.clearQueues := if_pos hfinal
    rw [heq]
    refine ⟨s, .refl, rfl, waiting_clearQueues, fun _ hrunning => ?_⟩
    cases hrunning
  · have heq : s.checkFinal = s := if_neg hfinal
    rw [heq]
    exact accounted_self none (h.resolve_left hfinal)

/-! ## The loop -/

/-- What a round comes to accounts for the queues. -/
def Round.Accounted (s : Session) : Round → Prop
  | .over result => s.Accounted result
  | .take _ r => Logged s r

theorem accounted_round : Round.Accounted s s.round := by
  obtain ⟨notes, hselect⟩ := logs_select (s := s) none
  have hnext {event : Event} {q : Session} (hempty : (s.select none).1 = [])
      (hdequeue : (s.select none).2.dequeue = some (event, q)) :
      Logged s ((q.setEvent event).select (some event)).2 := by
    -- the next event is taken right after this selection
    rw [hempty] at hselect
    obtain ⟨queue, hdequeued⟩ := logs_dequeue hselect hdequeue
    have hevent : Logged q (q.setEvent event) := ⟨[], .of_eq rfl rfl rfl⟩
    exact Logged.trans ⟨_, hdequeued⟩ (hevent.trans (logged_select (some event)))
  have hfound := s.found_round
  generalize s.round = round at hfound ⊢
  cases hfound with
  | complete hfinal => exact accounted_checkFinal (.inl hfinal)
  | failed _ _ => exact Logged.trans_accounted ⟨_, hselect⟩ (accounted_abort _)
  | enabled _ _ _ => exact ⟨_, hselect⟩
  | settled _ _ hempty hdequeue =>
      obtain ⟨hinternal, hderived⟩ := queues_of_dequeue_eq_none hdequeue
      rw [hempty] at hselect
      refine Logged.trans_accounted ⟨_, hselect⟩ (accounted_self none fun queue => ?_)
      cases queue with
      | internal => exact hinternal
      | derived => exact hderived
  | failedFor _ _ hempty hdequeue _ =>
      exact (hnext hempty hdequeue).trans_accounted (accounted_abort _)
  | enabledFor _ _ hempty hdequeue _ => exact hnext hempty hdequeue

theorem accounted_settle (budget : Nat) : Accounted s (settle budget s) := by
  induction budget generalizing s with
  | zero =>
      have hround := accounted_round (s := s)
      unfold settle
      split
      · next heq => rwa [heq] at hround
      · next heq =>
        rw [heq] at hround
        exact Logged.trans_accounted hround accounted_halt
  | succ budget ih =>
      have hround := accounted_round (s := s)
      unfold settle
      split
      · next heq => rwa [heq] at hround
      · next ts r heq =>
        rw [heq] at hround
        have htaken : Logged s (r.takeAll ts) := Logged.trans hround (logged_takeAll ts)
        dsimp only
        split
        · exact htaken.trans_accounted (accounted_abort _)
        · exact htaken.trans_accounted ih

theorem accounted_macrostep (first : List TransitionRef) : Accounted s (s.macrostep first) := by
  unfold macrostep
  split
  · exact accounted_abort _
  split
  · exact accounted_settle _
  split
  · exact accounted_halt
  have hstep := logged_microstep (s := s) first
  dsimp only
  split
  · exact hstep.trans_accounted (accounted_abort _)
  · exact hstep.trans_accounted (accounted_settle _)

/-! ## Calls -/

theorem accounted_start (h : ∀ queue, s.waiting queue = []) : Accounted s s.start := by
  unfold start
  split
  · have hrunning : Logged s { s with phase := .running, failedGuards := [] } :=
      ⟨[], .of_eq rfl rfl rfl⟩
    have hentered := hrunning.trans (logged_foldl (fun _ i => logged_enter i) s.arena.initialStates)
    exact hentered.trans_accounted (accounted_macrostep [])
  · exact accounted_self _ h

/-- Also when the event enables nothing, the account is complete: then a failing
guard would have queued an event. -/
theorem accounted_process (event : Event) (h : ∀ queue, s.waiting queue = []) :
    Accounted s (s.process event) := by
  have hreceive : Logged s (s.receive event) := ⟨[], .of_eq rfl rfl rfl⟩
  have hselect : Logged s (s.selectFor event).2 := hreceive.trans (logged_select (some event))
  have hview : SameView (s.receive event) (s.selectFor event).2 := sameView_select (some event)
  rw [process_eq]
  split
  · next hidle =>
    have hforget : Logged s (s.forget event) := hselect.trans ⟨[], .of_eq rfl rfl rfl⟩
    refine hforget.trans_accounted (accounted_checkFinal (.inr fun queue => ?_))
    simp only [isIdle, Bool.and_eq_true, List.isEmpty_iff] at hidle
    cases queue with
    | internal => exact hidle.2
    | derived => exact hview.derived.trans (h .derived)
  · exact hselect.trans_accounted (accounted_macrostep _)

theorem accounted_call (c : Call) (h : ∀ queue, s.waiting queue = []) :
    Accounted s (s.call c) := by
  cases c with
  | start => exact accounted_start h
  | submit event =>
      have hsubmit : s.call (.submit event) = s.submit event := rfl
      rw [hsubmit]
      unfold submit
      split
      · exact accounted_self _ h
      · exact accounted_self _ h
      · have hreport : Logged s (s.report (ignoredReport event)) := logged_report _
        exact hreport.trans_accounted (accounted_self none h)
      · exact accounted_process event h

/-- The queues are empty between calls. -/
theorem waiting_after (calls : List Call) (h : ∀ queue, s.waiting queue = []) (queue : Queue) :
    (s.after calls).waiting queue = [] := by
  induction calls generalizing s with
  | nil => exact h queue
  | cons c rest ih =>
      obtain ⟨r, -, hcloses⟩ := accounted_call c h
      exact ih hcloses.empty

theorem waiting_ofModel (model : Model) (config : Config) (evaluate : Evaluator)
    (queue : Queue) : (ofModel model config evaluate).waiting queue = [] := by
  cases queue <;> rfl

/-- Events leave a queue in the order in which they entered it.  In a call that
succeeds and leaves the session running all of them do, and in every other call
a first part of them.  A derived event is taken only when all internal ones have
been, right after nothing was found to do without an event. -/
theorem queues_in_order (model : Model) (config : Config) (evaluate : Evaluator)
    (calls : List Call) (c : Call) :
    let s := (ofModel model config evaluate).after calls
    (∀ queue, s.waiting queue = [] ∧ (s.call c).2.waiting queue = []) ∧
      ∃ notes, (s.call c).2.journal = notes ++ s.journal ∧
        (∀ queue, dequeuedEvents queue notes <+: queuedEvents queue notes) ∧
        ((s.call c).1 = none → (s.call c).2.phase = .running →
          ∀ queue, dequeuedEvents queue notes = queuedEvents queue notes) ∧
        ∀ later event earlier, notes = later ++ .dequeued .derived event :: earlier →
          dequeuedEvents .internal earlier = queuedEvents .internal earlier ∧
            ∃ before, earlier = .selected none [] :: before := by
  intro s
  have hempty : ∀ queue, s.waiting queue = [] :=
    waiting_after calls (waiting_ofModel model config evaluate)
  obtain ⟨r, ⟨notes, hlogs⟩, hcloses⟩ := accounted_call c hempty
  have hbalance : ∀ queue, queuedEvents queue notes =
      dequeuedEvents queue notes ++ r.waiting queue := fun queue => by
    rw [← hlogs.balance, hempty, List.nil_append]
  refine ⟨fun queue => ⟨hempty queue, hcloses.empty queue⟩, notes,
    hcloses.journal.trans hlogs.journal, fun queue => ?_, fun hok hrunning queue => ?_, ?_⟩
  · exact ⟨r.waiting queue, (hbalance queue).symm⟩
  · rw [hbalance, hcloses.complete hok hrunning, List.append_nil]
  · have hinternal : s.internal = [] := hempty .internal
    have hlast := hlogs.derivedLast
    rwa [hinternal] at hlast

end Session
end Statechart
