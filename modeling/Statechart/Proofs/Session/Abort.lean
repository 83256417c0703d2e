import Statechart.Proofs.Session.Failure
import Statechart.Proofs.Session.Recovery

/-!
# The account of failures that abort

Under the policy that aborts, the first failure of a call is what the call
returns, whatever else happens in it (`pending_performAll_of_abort`).  After it no
block runs any more, and nothing else touches the data model, but the microstep
goes on to its end as far as the active states are concerned.  The engine raises
no event for a failure.

`abort_account` puts this together for all calls on all sessions that a host can
hold.
-/

namespace Statechart

/-- What an operation demands of the active states: a microstep comes to its end
once it has begun. -/
def Arena.reshape (arena : Arena) (active : StateSet) : Operation → StateSet
  | .begin => arena.initialStates.foldl StateSet.enter active
  | .take ts => arena.nextActive active ts
  | _ => active

namespace Session

/-- While a failure is pending, operations only complete what was begun. -/
def Orderly (s : Session) : List Operation → Prop
  | [] => True
  | op :: rest => (s.pending.isSome → op.IsLooking ∨ op.IsMoving) ∧ (s.perform op).Orderly rest

variable {s r : Session} {c : Call} {result : Result} {op : Operation} {ops later : List Operation}

/-! ## The first failure -/

theorem pending_perform_of_abort (h : s.config.policy = .abort) :
    (s.perform op).pending = s.pending.or ((s.freshFault? op).map Fault.error) := by
  cases hfault : s.freshFault? op with
  | none =>
      rw [perform_of_none hfault, pending_performQuietly]
      exact Option.or_none.symm
  | some fault =>
      obtain ⟨note, -, heq⟩ := perform_of_some hfault
      have hpolicy : (s.performQuietly op).config.policy = .abort := by
        rw [sameChart_performQuietly.config, h]
      rw [heq, suffer_of_abort hpolicy]
      exact congrArg (Option.or · _) pending_performQuietly

theorem pending_performAll_of_some (h : s.config.policy = .abort) {error : ExecutionError}
    (hpending : s.pending = some error) : (s.performAll ops).pending = some error := by
  induction ops generalizing s with
  | nil => exact hpending
  | cons op rest ih =>
      have hpolicy : (s.perform op).config.policy = .abort := by rw [sameChart_perform.config, h]
      refine ih hpolicy ?_
      rw [pending_perform_of_abort h, hpending]
      rfl

/-- What is pending in the end is the first failure. -/
theorem pending_performAll_of_abort (h : s.config.policy = .abort) (hops : ∀ op ∈ ops, ¬ op.Opens)
    (hpending : s.pending = none) (hguards : s.failedGuards = []) :
    (s.performAll ops).pending = (s.faults ops).head?.map fun f => f.2.error := by
  induction ops generalizing s with
  | nil => exact hpending
  | cons op rest ih =>
      obtain ⟨hop, hrest⟩ := List.forall_mem_cons.1 hops
      have hpolicy : (s.perform op).config.policy = .abort := by rw [sameChart_perform.config, h]
      -- no guard has failed yet, so a failure is fresh
      have hfresh : s.freshFault? op = s.fault? op :=
        freshFault?_eq fun t _ => by rw [hguards]; exact List.not_mem_nil
      have hnext : (s.perform op).pending = (s.fault? op).map Fault.error := by
        rw [pending_perform_of_abort h, hpending, Option.none_or, hfresh]
      rw [performAll_cons, faults]
      cases hfault : s.fault? op with
      | none =>
          rw [hfault] at hnext hfresh
          refine ih hpolicy hrest hnext ?_
          rw [failedGuards_perform hop, hfresh, hguards]
          rfl
      | some fault =>
          rw [hfault] at hnext
          exact pending_performAll_of_some hpolicy hnext

/-- When a call opens, nothing is pending yet, and what is known of guards that
failed in earlier calls is forgotten. -/
theorem pending_performAll_of_opens (h : s.config.policy = .abort) (hop : op.Opens)
    (hops : ∀ op ∈ later, ¬ op.Opens) (hpending : s.pending = none) :
    (s.performAll (op :: later)).pending =
      (s.faults (op :: later)).head?.map fun f => f.2.error := by
  have hpolicy : (s.perform op).config.policy = .abort := by rw [sameChart_perform.config, h]
  have hnone : s.fault? op = none := fault?_eq_none_of_opens hop
  have hopened : (s.perform op).pending = none := by
    cases op <;> first | exact hpending | exact hop.elim
  rw [performAll_cons, faults, hnone]
  exact pending_performAll_of_abort hpolicy hops hopened (failedGuards_of_opens hop)

/-- At every point of a call, what is pending is the first failure so far. -/
theorem Course.pending_eq (h : Course s c ops result) (hrest : AtRest s)
    (hpolicy : s.config.policy = .abort) {first rest : List Operation}
    (hops : first ++ rest = ops) :
    (s.performAll first).pending = (s.faults first).head?.map fun f => f.2.error := by
  cases first with
  | nil => exact hrest.pending
  | cons op later =>
      subst hops
      rcases h.exists_cons with hnil | ⟨event, hignore⟩ | ⟨_, _, hcons, hop, hlater⟩
      · cases hnil
      · -- nothing fails where a complete chart ignores an event
        obtain ⟨rfl, htail⟩ := List.cons.inj hignore
        obtain rfl := (List.append_eq_nil_iff.1 htail).1
        exact hrest.pending
      · obtain ⟨rfl, rfl⟩ := List.cons.inj hcons
        have hlater : ∀ o ∈ later, ¬ o.Opens := fun o ho => hlater o (List.mem_append_left _ ho)
        exact pending_performAll_of_opens hpolicy hop hlater hrest.pending

theorem faults_append :
    s.faults (ops ++ later) = s.faults ops ++ (s.performAll ops).faults later := by
  induction ops generalizing s with
  | nil => rfl
  | cons op rest ih => rw [List.cons_append, faults, faults, ih, List.append_assoc]; rfl

/-- Once an operation has failed, a failure is pending. -/
theorem Course.pending_of_fault? (h : Course s c ops result) (hrest : AtRest s)
    (hpolicy : s.config.policy = .abort) {before after : List Operation}
    (hops : (before ++ [op]) ++ after = ops) {fault : Fault}
    (hfault : (s.performAll before).fault? op = some fault) :
    ∃ error, (s.performAll (before ++ [op])).pending = some error := by
  rw [h.pending_eq hrest hpolicy hops, faults_append, faults, hfault]
  cases s.faults before with
  | nil => exact ⟨_, rfl⟩
  | cons _ _ => exact ⟨_, rfl⟩

/-! ## After a failure -/

theorem orderly_append :
    s.Orderly (ops ++ later) ↔ s.Orderly ops ∧ (s.performAll ops).Orderly later := by
  induction ops generalizing s with
  | nil => exact (and_iff_right trivial).symm
  | cons op rest ih => rw [List.cons_append, Orderly, Orderly, ih, and_assoc]; rfl

theorem orderly_of_forall (h : ∀ op ∈ ops, op.IsLooking ∨ op.IsMoving) : s.Orderly ops := by
  induction ops generalizing s with
  | nil => trivial
  | cons op rest ih =>
      obtain ⟨hop, hrest⟩ := List.forall_mem_cons.1 h
      exact ⟨fun _ => hop, ih hrest⟩

theorem orderly_cons_of_none (hpending : s.pending = none)
    (hlater : ∀ op ∈ later, op.IsLooking ∨ op.IsMoving) : s.Orderly (op :: later) := by
  refine ⟨fun hsome => ?_, orderly_of_forall hlater⟩
  rw [hpending] at hsome
  cases hsome

theorem orderly_looking (event : Option Event) : s.Orderly (s.looking event) :=
  orderly_of_forall fun op hop => .inl (isLooking_looking event op hop)

theorem Advance.orderly (h : Advance s ops r) : s.Orderly ops := by
  have hnil : ∀ op ∈ ([] : List Operation), op.IsLooking ∨ op.IsMoving :=
    fun op hop => absurd hop List.not_mem_nil
  cases h with
  | dequeue _ hpending _ => exact orderly_cons_of_none hpending hnil
  | select event _ _ => exact orderly_looking event
  | step event _ _ hselected =>
      -- a microstep begins only if its selection did not fail
      obtain ⟨moving, heq, hmoving⟩ := (s.select event).2.stepping_eq (s.select event).1
      rw [orderly_append, performAll_looking, heq]
      exact ⟨orderly_looking event,
        orderly_cons_of_none hselected fun op hop => .inr (hmoving op hop)⟩
  | restore v _ hpending => exact orderly_cons_of_none hpending hnil

theorem Advances.orderly (h : Advances s ops r) : s.Orderly ops := by
  induction h with
  | refl => trivial
  | tail hbefore hmove ih =>
      rw [orderly_append, hbefore.performAll]
      exact ⟨ih, hmove.orderly⟩

theorem Course.orderly (h : Course s c ops result) (hrest : AtRest s) : s.Orderly ops := by
  have hnil : ∀ op ∈ ([] : List Operation), op.IsLooking ∨ op.IsMoving :=
    fun op hop => absurd hop List.not_mem_nil
  cases h with
  | refused _ => trivial
  | ignored event _ => exact orderly_cons_of_none hrest.pending hnil
  | worked hopening hadvances _ =>
      rw [orderly_append, hopening.performAll]
      refine ⟨?_, hadvances.orderly⟩
      cases hopening with
      | start _ =>
          refine orderly_cons_of_none hrest.pending fun op hop => .inr ?_
          exact isMoving_enteringAll _ op hop
      | submit event _ => exact orderly_cons_of_none hrest.pending hnil

/-- While a failure is pending a block does not run. -/
theorem perform_run_of_pending (h : s.pending.isSome = true) (block : Block) :
    s.perform (.run block) = s := if_pos h

theorem data_perform_of_pending (h : s.pending.isSome = true) (hop : op.IsLooking ∨ op.IsMoving) :
    (s.perform op).data = s.data ∧ (s.perform op).completion = s.completion := by
  cases op with
  | test t =>
      obtain ⟨_, _, _, _, _, heq⟩ := s.exists_perform_eq (.test t)
      rw [heq]
      exact ⟨rfl, rfl⟩
  | run block =>
      rw [perform_run_of_pending h]
      exact ⟨rfl, rfl⟩
  | _ => first | exact ⟨rfl, rfl⟩ | exact (hop.elim id id).elim

/-- While a failure is pending, the data model and the completion data stay as they
are. -/
theorem data_performAll_of_pending (h : s.config.policy = .abort) {error : ExecutionError}
    (hpending : s.pending = some error) (hops : s.Orderly ops) :
    (s.performAll ops).data = s.data ∧ (s.performAll ops).completion = s.completion := by
  induction ops generalizing s with
  | nil => exact ⟨rfl, rfl⟩
  | cons op rest ih =>
      have hsome : s.pending.isSome = true := by rw [hpending]; rfl
      obtain ⟨hdata, hcompletion⟩ := data_perform_of_pending hsome (hops.1 hsome)
      have hpolicy : (s.perform op).config.policy = .abort := by rw [sameChart_perform.config, h]
      have hnext : (s.performAll [op]).pending = some error :=
        pending_performAll_of_some h hpending
      obtain ⟨hrest, hrest'⟩ := ih hpolicy hnext hops.2
      exact ⟨hrest.trans hdata, hrest'.trans hcompletion⟩

/-! ## What becomes of the active states -/

theorem reshape_of_isLooking {arena : Arena} {active : StateSet} (h : op.IsLooking) :
    arena.reshape active op = active := by
  cases op <;> first | rfl | exact h.elim

theorem reshape_of_isMoving {arena : Arena} {active : StateSet} (h : op.IsMoving) :
    arena.reshape active op = active := by
  cases op <;> first | rfl | exact h.elim

theorem foldl_reshape {arena : Arena} {active : StateSet}
    (h : ∀ op ∈ ops, ∀ active, arena.reshape active op = active) :
    ops.foldl arena.reshape active = active := by
  induction ops generalizing active with
  | nil => rfl
  | cons op rest ih =>
      obtain ⟨hop, hrest⟩ := List.forall_mem_cons.1 h
      rw [List.foldl_cons, hop, ih hrest]

theorem Advance.active (h : Advance s ops r) : r.active = ops.foldl s.arena.reshape s.active := by
  cases h with
  | @dequeue r event _ _ hdequeue =>
      exact ((sameStates_dequeue hdequeue).trans (sameStates_setEvent event)).active
  | select event _ _ =>
      rw [foldl_reshape fun op hop _ => reshape_of_isLooking (isLooking_looking event op hop)]
      exact (sameView_select event).active
  | step event _ _ _ =>
      have hview := sameView_select (s := s) event
      obtain ⟨moving, heq, hmoving⟩ := (s.select event).2.stepping_eq (s.select event).1
      rw [List.foldl_append,
        foldl_reshape fun op hop _ => reshape_of_isLooking (isLooking_looking event op hop), heq,
        List.foldl_cons, foldl_reshape fun op hop _ => reshape_of_isMoving (hmoving op hop),
        active_microstep, hview.toSameRun.arena, hview.active]
      rfl
  | restore v _ _ => rfl

theorem Advances.active (h : Advances s ops r) : r.active = ops.foldl s.arena.reshape s.active := by
  induction h with
  | refl => rfl
  | tail hbefore hmove ih =>
      have harena := (Moves.sameChart hbefore.moves).arena
      rw [List.foldl_append, ← ih, ← harena]
      exact hmove.active

theorem Opening.active {q : Session} (h : Opening s c ops q) :
    q.active = ops.foldl s.arena.reshape s.active := by
  cases h with
  | start _ =>
      rw [beginning, List.foldl_cons,
        foldl_reshape fun op hop _ => reshape_of_isMoving (isMoving_enteringAll _ op hop)]
      exact sameStates_begun.active
  | submit event _ => rfl

/-- The active states after a call are those that its microsteps lead to, whatever
fails in them. -/
theorem Course.active (h : Course s c ops result) :
    result.2.active = ops.foldl s.arena.reshape s.active := by
  cases h with
  | refused _ => rfl
  | ignored event _ => rfl
  | worked hopening hadvances hending =>
      have harena := hopening.move.sameChart.arena
      obtain ⟨phase, hclosed⟩ := hending.exists_eq_closed
      rw [hclosed, List.foldl_append, ← hopening.active, ← harena]
      exact hadvances.active

/-! ## The account -/

theorem internal_perform_of_abort (h : s.config.policy = .abort) :
    (s.perform op).internal = s.left op ++ s.ownEvents op := by
  rw [← internal_performQuietly]
  cases hfault : s.freshFault? op with
  | none => rw [perform_of_none hfault]
  | some fault =>
      obtain ⟨note, -, heq⟩ := perform_of_some hfault
      have hpolicy : (s.performQuietly op).config.policy = .abort := by
        rw [sameChart_performQuietly.config, h]
      rw [heq, suffer_of_abort hpolicy]

/-- What the failures of a call come to if they abort it. -/
structure AbortAccount (s : Session) (ops : List Operation) (result : Result) : Prop where
  /-- Apart from the phase, the call ends as its operations do, with the same journal
  of what ran and what failed. -/
  replay : ∃ phase, result.2 = (s.performAll ops).closed phase
  /-- The call fails with the first failure, exactly if there is one. -/
  error : ∀ error, (result.1 = some error ∧ error.IsFailure) ↔
    (s.faults ops).head?.map (fun f => f.2.error) = some error
  /-- After a failure no block runs any more, and data stay as they are. -/
  stopped : ∀ before op after fault, ops = before ++ op :: after →
    (s.performAll before).fault? op = some fault →
      result.2.data = (s.performAll (before ++ [op])).data ∧
        result.2.completion = (s.performAll (before ++ [op])).completion ∧
        ∀ q block, (s.performAll (before ++ [op])).Performs after q (.run block) →
          q.perform (.run block) = q
  /-- Every microstep that was begun is completed. -/
  active : result.2.active = ops.foldl s.arena.reshape s.active
  waiting : ∀ queue, result.2.waiting queue = []
  /-- Every operation raises its own events only. -/
  events : ∀ q op, s.Performs ops q op → (q.perform op).internal = q.left op ++ q.ownEvents op

theorem isFailure_of_fault? {fault : Fault} (h : s.fault? op = some fault) :
    fault.error.IsFailure := by
  cases op with
  | test t =>
      change s.guardFault? t = some fault at h
      unfold guardFault? at h
      split at h
      · cases h
      · split at h
        · cases h
        · obtain rfl := Option.some.inj h
          trivial
  | run block =>
      change (if s.pending.isSome then none else s.blockFault? block) = some fault at h
      split at h
      · cases h
      · obtain ⟨error, -, rfl⟩ := Option.map_eq_some_iff.1 h
        cases error <;> trivial
  | _ => cases h

theorem isFailure_of_mem_faults {f : Operation × Fault} (h : f ∈ s.faults ops) :
    f.2.error.IsFailure := by
  obtain ⟨q, -, hfault⟩ := exists_performs_of_mem_faults h
  exact isFailure_of_fault? hfault

theorem Course.error_iff (h : Course s c ops result) (hrest : AtRest s)
    (hpolicy : s.config.policy = .abort) (error : ExecutionError) :
    (result.1 = some error ∧ error.IsFailure) ↔
      (s.faults ops).head?.map (fun f => f.2.error) = some error := by
  have hpending := h.pending_eq hrest hpolicy (List.append_nil ops)
  rw [← hpending]
  constructor
  · rintro ⟨herror, hfailure⟩
    exact (h.pending_iff hrest hfailure).1 herror
  · intro herror
    have hfailure : error.IsFailure := by
      obtain ⟨f, hf, rfl⟩ := Option.map_eq_some_iff.1 (hpending.symm.trans herror)
      exact isFailure_of_mem_faults (List.mem_of_head? hf)
    exact ⟨(h.pending_iff hrest hfailure).2 herror, hfailure⟩

theorem Course.stopped (h : Course s c ops result) (hrest : AtRest s)
    (hpolicy : s.config.policy = .abort) {before after : List Operation}
    (hops : (before ++ [op]) ++ after = ops) {fault : Fault}
    (hfault : (s.performAll before).fault? op = some fault) :
    result.2.data = (s.performAll (before ++ [op])).data ∧
      result.2.completion = (s.performAll (before ++ [op])).completion ∧
      ∀ q block, (s.performAll (before ++ [op])).Performs after q (.run block) →
        q.perform (.run block) = q := by
  obtain ⟨error, herror⟩ := h.pending_of_fault? hrest hpolicy hops hfault
  obtain ⟨phase, hclosed⟩ := h.exists_eq_closed hrest
  have horderly : (s.performAll (before ++ [op])).Orderly after := by
    have horderly := h.orderly hrest
    rw [← hops, orderly_append] at horderly
    exact horderly.2
  have hstill : (s.performAll (before ++ [op])).config.policy = .abort := by
    rw [sameChart_performAll.config, hpolicy]
  obtain ⟨hdata, hcompletion⟩ := data_performAll_of_pending hstill herror horderly
  rw [hclosed, ← hops, performAll_append]
  refine ⟨hdata, hcompletion, ?_⟩
  rintro q block ⟨first, rest, -, rfl⟩
  refine perform_run_of_pending ?_ block
  rw [pending_performAll_of_some hstill herror]
  rfl

/-- Under the policy that aborts every call has its account. -/
theorem abort_account (h : s.Held) (hpolicy : s.config.policy = .abort) (c : Call) :
    ∃ ops, Course s c ops (s.call c) ∧ AbortAccount s ops (s.call c) := by
  obtain ⟨ops, hcourse⟩ := exists_course h.atRest c
  refine ⟨ops, hcourse, hcourse.exists_eq_closed h.atRest, hcourse.error_iff h.atRest hpolicy, ?_,
    hcourse.active, (h.atRest.call c).waiting, ?_⟩
  · intro before op after fault hops hfault
    have hsplit : (before ++ [op]) ++ after = ops := by rw [hops, List.append_assoc]; rfl
    exact hcourse.stopped h.atRest hpolicy hsplit hfault
  · rintro q op ⟨before, after, -, rfl⟩
    refine internal_perform_of_abort ?_
    rw [sameChart_performAll.config, hpolicy]

/-- The entry of the first state fails, which ends the start. -/
theorem abort_account_stalled :
    let s := ofModel stalledModel { policy := .abort } .standard
    s.Held ∧ s.config.policy = .abort ∧
      (s.call .start).1 = some (.expression (.undefined "missing")) ∧
      ∃ ops, Course s .start ops (s.call .start) ∧ AbortAccount s ops (s.call .start) := by
  intro s
  have hheld : s.Held := .fresh build_stalled _ _
  exact ⟨hheld, rfl, by decide +kernel, abort_account hheld rfl .start⟩

end Session
end Statechart
