import Statechart.Proofs.Session.Course

/-!
# Failures

A guard fails when its evaluation fails, and a block fails when one of its actions
does.  `fault?` is the failure of an operation, and `freshFault?` leaves out the
guards that failed before in the same call.

The laws of this file say what an operation adds: its own reports and events, and
one report for a fresh failure.  By the policy the failure is raised as an event
behind the events of the operation itself, or it becomes pending unless there was
one before.  Nothing else is ever added, whatever the operation is.
-/

namespace Statechart

/-- A failure: the report on it, and the error of a macrostep that is aborted
with it. -/
structure Fault where
  report : Report
  error : ExecutionError

/-- The event that is raised for a failure. -/
def Fault.event (fault : Fault) : Event := .executionError fault.report.message

/-- The guard that is evaluated. -/
def Operation.guard? : Operation → Option TransitionRef
  | test t => some t
  | _ => none

/-- Holds of the notes on failures. -/
def Note.IsFailure : Note → Prop
  | blockFailed _ _ => True
  | guardFailed _ _ => True
  | _ => False

/-- Holds of the operations that begin a call. -/
def Operation.Opens : Operation → Prop
  | begin => True
  | receive _ => True
  | _ => False

namespace Session

/-- What running a block comes to. -/
def outcome (s : Session) (block : Block) : Outcome :=
  Action.runBlock ⟨s.data, s.evaluate, (s.arena.state block.state).id⟩ (s.arena.content block)

/-- The failure of a guard. -/
def guardFault? (s : Session) (t : TransitionRef) : Option Fault :=
  match (s.arena.transition t).cond with
  | none => none
  | some cond =>
    match s.evaluate.holds cond s.data with
    | .ok _ => none
    | .error error =>
      let message := "guard '" ++ cond ++ "' failed: " ++ error.message
      some ⟨⟨.expression, some (s.arena.state t.source).id, message⟩, .expression error⟩

/-- The failure of a block. -/
def blockFault? (s : Session) (block : Block) : Option Fault :=
  (s.outcome block).failure.map fun error =>
    ⟨⟨failureKind error, some (s.arena.state block.state).id, error.message⟩, .ofAction error⟩

/-- The failure of an operation.  A block does not run while a failure is
pending. -/
def fault? (s : Session) : Operation → Option Fault
  | .test t => s.guardFault? t
  | .run block => if s.pending.isSome then none else s.blockFault? block
  | _ => none

/-- The failure of an operation, unless it is that of a guard that failed
before. -/
def freshFault? (s : Session) : Operation → Option Fault
  | .test t => if s.failedGuards.contains t then none else s.guardFault? t
  | op => s.fault? op

/-- The reports of an operation that are not about its failure. -/
def ownReports (s : Session) : Operation → List Report
  | .run block => if s.pending.isSome then [] else (s.outcome block).reports
  | .ignore event => [ignoredReport event]
  | _ => []

/-- The internal events that are left when an operation begins. -/
def left (s : Session) : Operation → List Event
  | .dequeue => s.internal.tail
  | _ => s.internal

/-- The internal events of an operation that do not tell its failure. -/
def ownEvents (s : Session) : Operation → List Event
  | .run block => if s.pending.isSome then [] else (s.outcome block).raised
  | .complete i => [.completion (s.arena.state i).id]
  | _ => []

/-- The failures of some operations, in the order in which they happen. -/
def faults (s : Session) : List Operation → List (Operation × Fault)
  | [] => []
  | op :: rest => (s.fault? op).toList.map (op, ·) ++ (s.perform op).faults rest

/-- The failures of some operations that are fresh. -/
def freshFaults (s : Session) : List Operation → List (Operation × Fault)
  | [] => []
  | op :: rest => (s.freshFault? op).toList.map (op, ·) ++ (s.perform op).freshFaults rest

/-- The session after the actions of a block, before its failure is looked at. -/
def afterActions (s : Session) (block : Block) : Session :=
  (s.note (.ran block s.active)).absorb (s.outcome block)

/-- Performs an operation up to its failure. -/
def performQuietly (s : Session) : Operation → Session
  | .test _ => s
  | .run block => if s.pending.isSome then s else s.afterActions block
  | op => s.perform op

/-- Notes the fresh failure of an operation, reports it and follows the policy. -/
def suffer (s : Session) (op : Operation) (note : Note) (fault : Fault) : Session :=
  (({ s with failedGuards := op.guard?.toList ++ s.failedGuards }.note note).report
    fault.report).fail fault.report.message fault.error

/-- Among some operations, `op` is performed in the session `q`. -/
def Performs (s : Session) (ops : List Operation) (q : Session) (op : Operation) : Prop :=
  ∃ before after, ops = before ++ op :: after ∧ s.performAll before = q

variable {s r : Session} {c : Call} {result : Result} {op : Operation} {ops : List Operation}
  {t : TransitionRef} {block : Block} {fault : Fault} {note : Note}

/-! ## What an operation can do -/

theorem perform_test_of_none (h : s.freshFault? (.test t) = none) : s.perform (.test t) = s := by
  have hperform : s.perform (.test t) = (s.guardHolds t (s.arena.transition t).cond).2 := rfl
  rw [hperform]
  rw [freshFault?, guardFault?] at h
  cases hcond : (s.arena.transition t).cond with
  | none => rfl
  | some cond =>
      rw [guardHolds]
      cases hholds : s.evaluate.holds cond s.data with
      | ok answer => rfl
      | error error =>
          by_cases hknown : s.failedGuards.contains t = true
          · dsimp only
            rw [if_pos hknown]
          · rw [if_neg hknown, hcond] at h
            dsimp only at h
            rw [hholds] at h
            cases h

theorem perform_test_of_some (h : s.freshFault? (.test t) = some fault) :
    ∃ note : Note, note.IsFailure ∧ s.perform (.test t) = s.suffer (.test t) note fault := by
  have hperform : s.perform (.test t) = (s.guardHolds t (s.arena.transition t).cond).2 := rfl
  have hknown : ¬ s.failedGuards.contains t = true := fun hmem => by
    rw [freshFault?, if_pos hmem] at h
    cases h
  rw [hperform]
  rw [freshFault?, if_neg hknown, guardFault?] at h
  cases hcond : (s.arena.transition t).cond with
  | none =>
      rw [hcond] at h
      cases h
  | some cond =>
      rw [hcond] at h
      dsimp only at h
      rw [guardHolds]
      cases hholds : s.evaluate.holds cond s.data with
      | ok answer =>
          rw [hholds] at h
          cases h
      | error error =>
          rw [hholds] at h
          obtain rfl := Option.some.inj h
          refine ⟨.guardFailed t error, trivial, ?_⟩
          dsimp only
          rw [if_neg hknown]
          rfl

theorem absorb_idle : s.absorb (.idle s.data) = s := by
  rw [absorb_eq]
  simp [Outcome.idle, ReportLog.pushAll]

/-- The failure of a block is looked at after all that its actions did. -/
theorem perform_run (hpending : s.pending = none) :
    s.perform (.run block) =
      match (s.outcome block).failure with
      | none => s.afterActions block
      | some error =>
        (s.afterActions block).suffer (.run block) (.blockFailed block error)
          ⟨⟨failureKind error, some (s.arena.state block.state).id, error.message⟩,
            .ofAction error⟩ := by
  have hopen : ¬ s.pending.isSome = true := by simp [hpending]
  have hperform : s.perform (.run block) =
      s.runContent block block.state (s.arena.content block) := rfl
  rw [hperform, runContent, if_neg hopen]
  dsimp only
  split
  · next hnil =>
    have hidle : s.outcome block = .idle s.data := by
      rw [outcome, List.isEmpty_iff.1 hnil, Action.runBlock]
    rw [afterActions, hidle]
    exact (absorb_idle (s := s.note (.ran block s.active))).symm
  · rfl

/-- Taking an event from a queue, as far as failures are concerned. -/
theorem exists_performQuietly_dequeue : ∃ data derived journal,
    s.performQuietly .dequeue =
      { s with
        data := data
        internal := s.internal.tail
        derived := derived
        journal := journal } := by
  cases s with
  | mk _ _ _ _ _ _ internal derived _ _ _ _ _ _ _ =>
      cases internal with
      | cons _ _ => exact ⟨_, _, _, rfl⟩
      | nil => cases derived <;> exact ⟨_, _, _, rfl⟩

/-- Without a fresh failure an operation only does what it is for. -/
theorem perform_of_none (h : s.freshFault? op = none) : s.perform op = s.performQuietly op := by
  cases op with
  | test t => exact perform_test_of_none h
  | run block =>
      cases hpending : s.pending with
      | some error =>
          have hbusy : s.pending.isSome = true := by simp [hpending]
          exact (if_pos hbusy).trans (if_pos hbusy).symm
      | none =>
          have hopen : ¬ s.pending.isSome = true := by simp [hpending]
          have hfault : s.blockFault? block = none := (if_neg hopen).symm.trans h
          rw [perform_run hpending, Option.map_eq_none_iff.1 hfault]
          exact (if_neg hopen).symm
  | _ => rfl

/-- With one it does what it is for, and then it notes the failure. -/
theorem perform_of_some (h : s.freshFault? op = some fault) :
    ∃ note : Note, note.IsFailure ∧
      s.perform op = (s.performQuietly op).suffer op note fault := by
  cases op with
  | test t => exact perform_test_of_some h
  | run block =>
      cases hpending : s.pending with
      | some error =>
          have hbusy : s.pending.isSome = true := by simp [hpending]
          cases (if_pos hbusy).symm.trans h
      | none =>
          have hopen : ¬ s.pending.isSome = true := by simp [hpending]
          have hfault : s.blockFault? block = some fault := (if_neg hopen).symm.trans h
          obtain ⟨error, herror, rfl⟩ := Option.map_eq_some_iff.1 hfault
          have hquietly : s.performQuietly (.run block) = s.afterActions block := if_neg hopen
          refine ⟨.blockFailed block error, trivial, ?_⟩
          rw [perform_run hpending, herror, hquietly]
  | _ => cases h

/-! ## What an operation does apart from its failure -/

theorem sameChart_performQuietly : SameChart s (s.performQuietly op) := by
  cases op with
  | dequeue =>
      obtain ⟨_, _, _, heq⟩ := s.exists_performQuietly_dequeue
      rw [heq]
      exact ⟨rfl, rfl, rfl⟩
  | run block =>
      unfold performQuietly
      dsimp only
      split
      · exact ⟨rfl, rfl, rfl⟩
      · rw [afterActions, absorb_eq]
        exact ⟨rfl, rfl, rfl⟩
  | _ => exact ⟨rfl, rfl, rfl⟩

theorem reports_performQuietly :
    (s.performQuietly op).reports = s.reports.pushAll (s.ownReports op) := by
  cases op with
  | dequeue =>
      obtain ⟨_, _, _, heq⟩ := s.exists_performQuietly_dequeue
      rw [heq]
      rfl
  | run block =>
      unfold performQuietly ownReports
      dsimp only
      split
      · rfl
      · rw [afterActions, absorb_eq]
        rfl
  | _ => rfl

theorem internal_performQuietly :
    (s.performQuietly op).internal = s.left op ++ s.ownEvents op := by
  cases op with
  | dequeue =>
      obtain ⟨_, _, _, heq⟩ := s.exists_performQuietly_dequeue
      rw [heq]
      exact (List.append_nil _).symm
  | run block =>
      unfold performQuietly left ownEvents
      dsimp only
      split
      · exact (List.append_nil _).symm
      · rw [afterActions, absorb_eq]
        rfl
  | complete i => rfl
  | _ => exact (List.append_nil _).symm

theorem pending_performQuietly : (s.performQuietly op).pending = s.pending := by
  cases op with
  | dequeue =>
      obtain ⟨_, _, _, heq⟩ := s.exists_performQuietly_dequeue
      rw [heq]
  | run block =>
      unfold performQuietly
      dsimp only
      split
      · rfl
      · rw [afterActions, absorb_eq]
        rfl
  | _ => rfl

/-- What is known of guards that failed is forgotten when a call begins only. -/
theorem failedGuards_performQuietly (h : ¬ op.Opens) :
    (s.performQuietly op).failedGuards = s.failedGuards := by
  cases op with
  | begin => exact absurd trivial h
  | receive event => exact absurd trivial h
  | dequeue =>
      obtain ⟨_, _, _, heq⟩ := s.exists_performQuietly_dequeue
      rw [heq]
  | run block =>
      unfold performQuietly
      dsimp only
      split
      · rfl
      · rw [afterActions, absorb_eq]
        rfl
  | _ => rfl

/-! ## What a failure leads to -/

/-- Under the one policy a failure is raised as an event. -/
theorem suffer_of_skip (h : s.config.policy = .skip) :
    s.suffer op note fault =
      { s with
        failedGuards := op.guard?.toList ++ s.failedGuards
        reports := s.reports.push fault.report
        internal := s.internal ++ [fault.event]
        journal := .queued .internal fault.event :: note :: s.journal } := by
  have hpolicy : (({ s with failedGuards := op.guard?.toList ++ s.failedGuards }.note note).report
    fault.report).config.policy = .skip := h
  rw [suffer, fail, hpolicy]
  rfl

/-- Under the other one it becomes pending, unless there was one before. -/
theorem suffer_of_abort (h : s.config.policy = .abort) :
    s.suffer op note fault =
      { s with
        failedGuards := op.guard?.toList ++ s.failedGuards
        reports := s.reports.push fault.report
        pending := s.pending.or (some fault.error)
        journal := note :: s.journal } := by
  have hpolicy : (({ s with failedGuards := op.guard?.toList ++ s.failedGuards }.note note).report
    fault.report).config.policy = .abort := h
  rw [suffer, fail, hpolicy]
  rfl

theorem suffer_eq : ∃ internal pending journal, s.suffer op note fault =
    { s with
      failedGuards := op.guard?.toList ++ s.failedGuards
      reports := s.reports.push fault.report
      internal := internal
      pending := pending
      journal := journal } := by
  cases hpolicy : s.config.policy with
  | skip => exact ⟨_, s.pending, _, suffer_of_skip hpolicy⟩
  | abort => exact ⟨s.internal, _, _, suffer_of_abort hpolicy⟩

/-- What a failure may change. -/
theorem exists_perform_eq (op : Operation) : ∃ failedGuards reports internal pending journal,
    s.perform op =
      { s.performQuietly op with
        failedGuards := failedGuards
        reports := reports
        internal := internal
        pending := pending
        journal := journal } := by
  cases hfault : s.freshFault? op with
  | none => exact ⟨_, _, _, _, _, perform_of_none hfault⟩
  | some fault =>
      obtain ⟨note, -, heq⟩ := perform_of_some hfault
      obtain ⟨_, _, _, hsuffer⟩ := (s.performQuietly op).suffer_eq
      exact ⟨_, _, _, _, _, heq.trans hsuffer⟩

theorem data_perform : (s.perform op).data = (s.performQuietly op).data := by
  obtain ⟨_, _, _, _, _, heq⟩ := s.exists_perform_eq op
  rw [heq]

theorem fault?_of_freshFault? (h : s.freshFault? op = some fault) :
    s.fault? op = some fault := by
  cases op with
  | test t =>
      rw [freshFault?] at h
      split at h
      · cases h
      · exact h
  | _ => exact h

/-- What becomes pending is the failure of the operation. -/
theorem pending_perform_or (op : Operation) : (s.perform op).pending = s.pending ∨
    ∃ fault, s.fault? op = some fault ∧ (s.perform op).pending = some fault.error := by
  cases hfault : s.freshFault? op with
  | none =>
      rw [perform_of_none hfault]
      exact .inl pending_performQuietly
  | some fault =>
      obtain ⟨note, -, heq⟩ := perform_of_some hfault
      rw [heq]
      cases hpolicy : (s.performQuietly op).config.policy with
      | skip =>
          rw [suffer_of_skip hpolicy]
          exact .inl pending_performQuietly
      | abort =>
          rw [suffer_of_abort hpolicy]
          dsimp only
          rw [pending_performQuietly]
          cases hpending : s.pending with
          | none => exact .inr ⟨fault, fault?_of_freshFault? hfault, rfl⟩
          | some error => exact .inl rfl

theorem sameChart_perform : SameChart s (s.perform op) := by
  obtain ⟨_, _, _, _, _, heq⟩ := s.exists_perform_eq op
  rw [heq]
  exact sameChart_performQuietly.trans ⟨rfl, rfl, rfl⟩

theorem sameChart_performAll : SameChart s (s.performAll ops) := by
  induction ops generalizing s with
  | nil => exact ⟨rfl, rfl, rfl⟩
  | cons op rest ih => exact sameChart_perform.trans ih

theorem pushAll_append (log : ReportLog) (first rest : List Report) :
    log.pushAll (first ++ rest) = (log.pushAll first).pushAll rest := List.foldl_append

/-- An operation adds its own reports and then one on its fresh failure. -/
theorem reports_perform :
    (s.perform op).reports =
      s.reports.pushAll (s.ownReports op ++ (s.freshFault? op).toList.map Fault.report) := by
  rw [pushAll_append, ← reports_performQuietly]
  cases hfault : s.freshFault? op with
  | none =>
      rw [perform_of_none hfault]
      rfl
  | some fault =>
      obtain ⟨note, -, heq⟩ := perform_of_some hfault
      obtain ⟨_, _, _, hsuffer⟩ := (s.performQuietly op).suffer_eq
      rw [heq, hsuffer]
      rfl

/-- A guard that failed freshly counts as failed from then on. -/
theorem failedGuards_perform (h : ¬ op.Opens) :
    (s.perform op).failedGuards =
      (if (s.freshFault? op).isSome then op.guard?.toList else []) ++ s.failedGuards := by
  cases hfault : s.freshFault? op with
  | none =>
      rw [perform_of_none hfault]
      exact failedGuards_performQuietly h
  | some fault =>
      obtain ⟨note, -, heq⟩ := perform_of_some hfault
      obtain ⟨_, _, _, hsuffer⟩ := (s.performQuietly op).suffer_eq
      rw [heq, hsuffer]
      exact congrArg (op.guard?.toList ++ ·) (failedGuards_performQuietly h)

theorem fault?_eq_none_of_opens (h : op.Opens) : s.fault? op = none := by
  cases op <;> first | rfl | exact h.elim

theorem failedGuards_of_opens (h : op.Opens) : (s.perform op).failedGuards = [] := by
  cases op <;> first | rfl | exact h.elim

/-- A failure is fresh unless it is that of a guard that failed before. -/
theorem freshFault?_eq (h : ∀ t, op.guard? = some t → t ∉ s.failedGuards) :
    s.freshFault? op = s.fault? op := by
  cases op with
  | test t =>
      refine if_neg fun hmem => h t rfl ?_
      exact List.contains_iff_mem.1 hmem
  | _ => rfl

/-- A failure among those of some operations is that of one of them. -/
theorem exists_performs_of_mem_faults {f : Operation × Fault} (h : f ∈ s.faults ops) :
    ∃ q, s.Performs ops q f.1 ∧ q.fault? f.1 = some f.2 := by
  induction ops generalizing s with
  | nil => cases h
  | cons op rest ih =>
      rcases List.mem_append.1 h with h | h
      · obtain ⟨fault, hfault, rfl⟩ := List.mem_map.1 h
        exact ⟨s, ⟨[], rest, rfl, rfl⟩, Option.mem_toList.1 hfault⟩
      · obtain ⟨q, ⟨before, after, rfl, rfl⟩, hfault⟩ := ih h
        exact ⟨_, ⟨op :: before, after, rfl, rfl⟩, hfault⟩

/-- What is pending after some operations was pending before or is a failure of one of them. -/
theorem pending_performAll_or {error : ExecutionError}
    (h : (s.performAll ops).pending = some error) :
    s.pending = some error ∨ ∃ f ∈ s.faults ops, f.2.error = error := by
  induction ops generalizing s with
  | nil => exact .inl h
  | cons op rest ih =>
      rw [faults]
      rcases ih h with hnext | ⟨f, hf, heq⟩
      · rcases s.pending_perform_or op with hsame | ⟨fault, hfault, hpending⟩
        · exact .inl (hsame.symm.trans hnext)
        · refine .inr ⟨(op, fault), List.mem_append_left _ ?_, ?_⟩
          · exact List.mem_map.2 ⟨fault, Option.mem_toList.2 hfault, rfl⟩
          · exact Option.some.inj (hpending.symm.trans hnext)
      · exact .inr ⟨f, List.mem_append_right _ hf, heq⟩

/-! ## The shape of a course -/

theorem not_opens_of_isLooking (h : op.IsLooking) : ¬ op.Opens := by
  cases op <;> first | exact id | exact h.elim

theorem not_opens_of_isMoving (h : op.IsMoving) : ¬ op.Opens := by
  cases op <;> first | exact id | exact h.elim

theorem not_opens_stepping (ts : List TransitionRef) : ∀ op ∈ s.stepping ts, ¬ op.Opens := by
  obtain ⟨ops, heq, hmoving⟩ := s.stepping_eq ts
  rw [heq]
  exact List.forall_mem_cons.2 ⟨id, fun op hop => not_opens_of_isMoving (hmoving op hop)⟩

theorem Advance.not_opens (h : Advance s ops r) : ∀ op ∈ ops, ¬ op.Opens := by
  cases h with
  | dequeue _ _ _ => exact List.forall_mem_singleton.2 id
  | select event _ _ => exact fun op hop => not_opens_of_isLooking (isLooking_looking event op hop)
  | step event _ _ _ =>
      refine List.forall_mem_append.2 ⟨fun op hop => ?_, not_opens_stepping _⟩
      exact not_opens_of_isLooking (isLooking_looking event op hop)
  | restore v _ _ => exact List.forall_mem_singleton.2 id

theorem Advances.not_opens (h : Advances s ops r) : ∀ op ∈ ops, ¬ op.Opens := by
  induction h with
  | refl => exact fun op hop => absurd hop List.not_mem_nil
  | tail _ hmove ih => exact List.forall_mem_append.2 ⟨ih, hmove.not_opens⟩

/-- If the engine works at all, only the first operation of a call opens it. -/
theorem Course.exists_cons (h : Course s c ops result) :
    ops = [] ∨ (∃ event, ops = [.ignore event]) ∨
      ∃ op later, ops = op :: later ∧ op.Opens ∧ ∀ o ∈ later, ¬ o.Opens := by
  cases h with
  | refused _ => exact .inl rfl
  | ignored event _ => exact .inr (.inl ⟨event, rfl⟩)
  | worked hopening hadvances _ =>
      have hlater := hadvances.not_opens
      refine .inr (.inr ?_)
      cases hopening with
      | start _ =>
          refine ⟨.begin, _, rfl, trivial, List.forall_mem_append.2 ⟨fun o ho => ?_, hlater⟩⟩
          exact not_opens_of_isMoving (isMoving_enteringAll _ o ho)
      | submit event _ => exact ⟨.receive event, _, rfl, trivial, hlater⟩

/-- Apart from the phase, a call ends as its operations do. -/
theorem Course.exists_eq_closed (h : Course s c ops result) (hrest : AtRest s) :
    ∃ phase, result.2 = (s.performAll ops).closed phase := by
  cases h with
  | refused _ => exact ⟨s.phase, (closed_self hrest.pending hrest.waiting).symm⟩
  | ignored event _ =>
      exact ⟨s.phase, (closed_self (s := s.report (ignoredReport event)) hrest.pending
        fun queue => hrest.waiting queue).symm⟩
  | worked hopening hadvances hending =>
      obtain ⟨phase, hclosed⟩ := hending.exists_eq_closed
      refine ⟨phase, ?_⟩
      rw [hclosed, performAll_append, hopening.performAll, hadvances.performAll]

/-- A call returns a failure exactly if one is pending after its operations. -/
theorem Course.pending_iff (h : Course s c ops result) (hrest : AtRest s)
    {error : ExecutionError} (hfailure : error.IsFailure) :
    result.1 = some error ↔ (s.performAll ops).pending = some error := by
  cases h with
  | refused hrefuses =>
      have hpending : s.pending = none := hrest.pending
      refine ⟨fun heq => ?_, fun heq => ?_⟩
      · obtain rfl := Option.some.inj heq
        exact absurd hfailure hrefuses.not_isFailure
      · cases hpending.symm.trans heq
  | ignored event _ =>
      have hpending : s.pending = none := hrest.pending
      refine ⟨fun heq => ?_, fun heq => ?_⟩
      · cases heq
      · cases hpending.symm.trans heq
  | worked hopening hadvances hending =>
      rw [performAll_append, hopening.performAll, hadvances.performAll]
      exact ⟨fun heq => hending.pending_of_error heq hfailure, hending.error_of_pending⟩

end Session
end Statechart
