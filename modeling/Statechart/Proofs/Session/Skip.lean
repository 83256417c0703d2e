import Statechart.Proofs.Session.Failure

/-!
# The account of failures that are skipped

Under the policy that skips failures a call never ends with a failure.  Every
failing block adds one report and one event, behind the events that its actions
raised.  A guard adds them the first time that it fails in a call, and then never
again, however often it is evaluated (`filter_freshFaults`).

`skip_account` puts this together for all calls on all sessions that a host can
hold.
-/

namespace Statechart
namespace Session

variable {s r : Session} {c : Call} {result : Result} {op : Operation} {ops : List Operation}
  {t : TransitionRef}

/-! ## Skipping a failure -/

theorem pending_perform_of_skip (h : s.config.policy = .skip) :
    (s.perform op).pending = s.pending := by
  cases hfault : s.freshFault? op with
  | none => rw [perform_of_none hfault, pending_performQuietly]
  | some fault =>
      obtain ⟨note, -, heq⟩ := perform_of_some hfault
      have hpolicy : (s.performQuietly op).config.policy = .skip := by
        rw [sameChart_performQuietly.config, h]
      rw [heq, suffer_of_skip hpolicy]
      exact pending_performQuietly

theorem pending_performAll_of_skip (h : s.config.policy = .skip) :
    (s.performAll ops).pending = s.pending := by
  induction ops generalizing s with
  | nil => rfl
  | cons op rest ih =>
      have hpolicy : (s.perform op).config.policy = .skip := by rw [sameChart_perform.config, h]
      rw [performAll_cons, ih hpolicy, pending_perform_of_skip h]

/-- Behind what is left an operation raises its own events, and then the one for
its fresh failure. -/
theorem internal_perform_of_skip (h : s.config.policy = .skip) :
    (s.perform op).internal =
      s.left op ++ s.ownEvents op ++ (s.freshFault? op).toList.map Fault.event := by
  rw [← internal_performQuietly]
  cases hfault : s.freshFault? op with
  | none =>
      rw [perform_of_none hfault]
      exact (List.append_nil _).symm
  | some fault =>
      obtain ⟨note, -, heq⟩ := perform_of_some hfault
      have hpolicy : (s.performQuietly op).config.policy = .skip := by
        rw [sameChart_performQuietly.config, h]
      rw [heq, suffer_of_skip hpolicy]
      rfl

/-! ## Guards that fail repeatedly -/

theorem filter_guard_of_ne (h : op.guard? ≠ some t) (fault : Option Fault) :
    (fault.toList.map (op, ·)).filter (fun f => f.1.guard? = some t) = [] := by
  cases fault <;> simp [h]

theorem filter_freshFaults_of_mem (hops : ∀ op ∈ ops, ¬ op.Opens) (ht : t ∈ s.failedGuards) :
    (s.freshFaults ops).filter (fun f => f.1.guard? = some t) = [] := by
  induction ops generalizing s with
  | nil => rfl
  | cons op rest ih =>
      obtain ⟨hop, hrest⟩ := List.forall_mem_cons.1 hops
      have hmem : t ∈ (s.perform op).failedGuards := by
        rw [failedGuards_perform hop]
        exact List.mem_append_right _ ht
      rw [freshFaults, List.filter_append, ih hrest hmem, List.append_nil]
      by_cases hguard : op.guard? = some t
      · have hnone : s.freshFault? op = none := by
          cases op with
          | test u =>
              obtain rfl := Option.some.inj hguard
              exact if_pos (List.contains_iff_mem.2 ht)
          | _ => cases hguard
        rw [hnone]
        rfl
      · exact filter_guard_of_ne hguard _

/-- Of the failures of a guard within a call the first one is fresh, and no other
one. -/
theorem filter_freshFaults (hops : ∀ op ∈ ops, ¬ op.Opens) (ht : t ∉ s.failedGuards) :
    (s.freshFaults ops).filter (fun f => f.1.guard? = some t) =
      ((s.faults ops).filter fun f => f.1.guard? = some t).take 1 := by
  induction ops generalizing s with
  | nil => rfl
  | cons op rest ih =>
      obtain ⟨hop, hrest⟩ := List.forall_mem_cons.1 hops
      rw [freshFaults, faults, List.filter_append, List.filter_append]
      by_cases hguard : op.guard? = some t
      · have hfresh : s.freshFault? op = s.fault? op :=
          freshFault?_eq fun u hu => by rwa [← Option.some.inj (hguard.symm.trans hu)]
        cases hfault : s.fault? op with
        | none =>
            have hmem : t ∉ (s.perform op).failedGuards := by
              rw [failedGuards_perform hop, hfresh, hfault]
              exact ht
            rw [hfresh, hfault]
            exact ih hrest hmem
        | some fault =>
            have hmem : t ∈ (s.perform op).failedGuards := by
              rw [failedGuards_perform hop, hfresh, hfault, hguard]
              exact List.mem_cons_self
            rw [hfresh, hfault, filter_freshFaults_of_mem hrest hmem]
            simp [hguard]
      · have hmem : t ∉ (s.perform op).failedGuards := by
          rw [failedGuards_perform hop]
          split
          · simp [hguard, ht]
          · exact ht
        rw [filter_guard_of_ne hguard, filter_guard_of_ne hguard]
        exact ih hrest hmem

theorem Course.filter_freshFaults (h : Course s c ops result) (t : TransitionRef) :
    (s.freshFaults ops).filter (fun f => f.1.guard? = some t) =
      ((s.faults ops).filter fun f => f.1.guard? = some t).take 1 := by
  rcases h.exists_cons with rfl | ⟨event, rfl⟩ | ⟨op, later, rfl, hop, hlater⟩
  · rfl
  · rfl
  · -- what is known of guards that failed in earlier calls is forgotten at first
    have hnone : s.fault? op = none := fault?_eq_none_of_opens hop
    have hfresh : s.freshFault? op = none := by
      cases op <;> first | rfl | exact hop.elim
    have hempty : t ∉ (s.perform op).failedGuards := by
      rw [failedGuards_of_opens hop]
      exact List.not_mem_nil
    rw [freshFaults, faults, hnone, hfresh]
    exact Session.filter_freshFaults hlater hempty

/-! ## The account -/

/-- What the failures of a call come to if they are skipped. -/
structure SkipAccount (s : Session) (ops : List Operation) (result : Result) : Prop where
  /-- Apart from the phase, the call ends as its operations do, with the same journal
  of what ran and what failed. -/
  replay : ∃ phase, result.2 = (s.performAll ops).closed phase
  error : ∀ error, result.1 = some error → ¬ error.IsFailure
  /-- Every operation adds its own reports and one on its fresh failure. -/
  reports : ∀ q op, s.Performs ops q op → (q.perform op).reports =
    q.reports.pushAll (q.ownReports op ++ (q.freshFault? op).toList.map Fault.report)
  /-- So it is with internal events, and the failure comes last. -/
  events : ∀ q op, s.Performs ops q op → (q.perform op).internal =
    q.left op ++ q.ownEvents op ++ (q.freshFault? op).toList.map Fault.event
  /-- In particular every failing block adds one report and one event. -/
  blocks : ∀ q block, s.Performs ops q (.run block) →
    (q.perform (.run block)).reports = q.reports.pushAll
        ((q.outcome block).reports ++ (q.blockFault? block).toList.map Fault.report) ∧
      (q.perform (.run block)).internal =
        q.internal ++ (q.outcome block).raised ++ (q.blockFault? block).toList.map Fault.event
  /-- Of the failures of a guard the first one is fresh, and no other one. -/
  guards : ∀ t, (s.freshFaults ops).filter (fun f => f.1.guard? = some t) =
    ((s.faults ops).filter fun f => f.1.guard? = some t).take 1

/-- Under the policy that skips failures every call has its account. -/
theorem skip_account (h : s.Held) (hpolicy : s.config.policy = .skip) (c : Call) :
    ∃ ops, Course s c ops (s.call c) ∧ SkipAccount s ops (s.call c) := by
  obtain ⟨ops, hcourse⟩ := exists_course h.atRest c
  have hq : ∀ {q op}, s.Performs ops q op → q.config.policy = .skip ∧ q.pending = none := by
    rintro q op ⟨before, after, -, rfl⟩
    rw [sameChart_performAll.config, pending_performAll_of_skip hpolicy]
    exact ⟨hpolicy, h.atRest.pending⟩
  refine ⟨ops, hcourse, hcourse.exists_eq_closed h.atRest, ?_, ?_, ?_, ?_, ?_⟩
  · intro error herror hfailure
    have hpending := (hcourse.pending_iff h.atRest hfailure).1 herror
    rw [pending_performAll_of_skip hpolicy, h.atRest.pending] at hpending
    cases hpending
  · exact fun _ _ _ => reports_perform
  · exact fun _ _ hperforms => internal_perform_of_skip (hq hperforms).1
  · intro q block hperforms
    -- no failure is pending, so the block runs
    have hopen : ¬ q.pending.isSome = true := by simp [(hq hperforms).2]
    have hfresh : q.freshFault? (.run block) = q.blockFault? block := if_neg hopen
    have hreports : q.ownReports (.run block) = (q.outcome block).reports := if_neg hopen
    have hevents : q.ownEvents (.run block) = (q.outcome block).raised := if_neg hopen
    rw [reports_perform, internal_perform_of_skip (hq hperforms).1, hfresh, hreports, hevents]
    exact ⟨rfl, rfl⟩
  · exact hcourse.filter_freshFaults

/-- A state whose entry fails after it raised an event, and whose guard fails
whenever it is evaluated. -/
def grumbler : Document where
  states :=
    [.state
      { id := "a"
        onEntry := [.raise "ready", .log none (some "missing")]
        transitions := [{ cond := some "absent" }, { event := some "go" }] } []]

/-- The model of `grumbler`. -/
def grumblerModel : Model := (Model.build grumbler .empty).toOption.getD default

theorem build_grumbler : Model.build grumbler .empty = .ok grumblerModel := rfl

/-- Three events are processed, and the guard is evaluated four times. -/
theorem skip_account_grumbler :
    let s := ofModel grumblerModel {} .standard
    s.Held ∧ s.config.policy = .skip ∧
      (s.call .start).2.reports.kept.map Report.message =
        ["undefined variable 'missing'", "guard 'absent' failed: undefined variable 'absent'"] ∧
      ∃ ops, Course s .start ops (s.call .start) ∧ SkipAccount s ops (s.call .start) := by
  intro s
  have hheld : s.Held := .fresh build_grumbler _ _
  exact ⟨hheld, rfl, by decide +kernel, skip_account hheld rfl .start⟩

end Session
end Statechart
