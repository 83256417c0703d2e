import Mathlib.Data.List.DropRight
import Statechart.Report

/-!
# The latest reports

What a log keeps is told from the history of its uses, newest use last.  Only the uses since the
last drain matter, and of the reports that were pushed since then the log keeps some of the latest
ones, oldest first.  How many these are depends on the bounds that held in the meantime: a bound
that was small for a while costs reports that a larger one does not bring back.  With one bound
there are as many as it allows (`KeepsLatest.length_eq`).

A push into a full log drops one report only, so it relies on the log not being over full.  That
is what `setBound` restores, and it is the invariant of the run (`KeepsLatest.length_le`).
-/

namespace Statechart
namespace ReportLog

/-- What can be done with a log. -/
inductive Use where
  | push (report : Report)
  | setBound (bound : Nat)
  | drain
  /-- A hook is installed. -/
  | hook
  deriving Repr, DecidableEq

namespace Use

/-- The report that is pushed. -/
def report? : Use → Option Report
  | push report => some report
  | _ => none

/-- The bound that is set. -/
def bound? : Use → Option Nat
  | setBound bound => some bound
  | _ => none

end Use

/-- Uses a log once. -/
def use (log : ReportLog) : Use → ReportLog
  | .push report => log.push report
  | .setBound bound => log.setBound bound
  | .drain => log.drain.2
  | .hook => log.withHook

/-- Uses a log again and again. -/
def useAll (log : ReportLog) (uses : List Use) : ReportLog := uses.foldl use log

/-- The reports that are pushed, oldest first. -/
def pushed (uses : List Use) : List Report := uses.filterMap Use.report?

/-- The uses behind the last drain. -/
def sinceDrain (uses : List Use) : List Use := uses.rtakeWhile (· ≠ .drain)

/-- The bound that was set last, or the first one. -/
def boundAfter (first : Nat) (uses : List Use) : Nat :=
  (uses.filterMap Use.bound?).getLast?.getD first

/-- The uses since the last hook was installed. -/
def sinceHook (uses : List Use) : List Use := uses.rtakeWhile (· ≠ .hook)

/-- What the hook receives: everything that is pushed while it is installed. -/
def receivedAfter (uses : List Use) : Option (List Report) :=
  if .hook ∈ uses then some (pushed (sinceHook uses)) else none

/-- The log is that of a bound after some uses. -/
structure KeepsLatest (first : Nat) (uses : List Use) (log : ReportLog) : Prop where
  bound_eq : log.bound = boundAfter first uses
  length_le : log.kept.length ≤ log.bound
  suffix : log.kept <:+ pushed (sinceDrain uses)
  /-- Without a change of the bound, no report is dropped that there is room for. -/
  length_eq : (∀ b, .setBound b ∉ sinceDrain uses) →
    log.kept.length = min log.bound (pushed (sinceDrain uses)).length
  received_eq : log.received = receivedAfter uses

variable {log : ReportLog} {first : Nat} {uses : List Use} {u : Use}

/-! ## One more use -/

theorem useAll_concat : log.useAll (uses ++ [u]) = (log.useAll uses).use u := by
  simp [useAll]

theorem useAll_append (later : List Use) :
    log.useAll (uses ++ later) = (log.useAll uses).useAll later := List.foldl_append

theorem useAll_push (reports : List Report) :
    log.useAll (reports.map .push) = log.pushAll reports := List.foldl_map

theorem pushed_concat : pushed (uses ++ [u]) = pushed uses ++ u.report?.toList := by
  cases u <;> simp [pushed, Use.report?]

theorem sinceDrain_concat (h : u ≠ .drain) : sinceDrain (uses ++ [u]) = sinceDrain uses ++ [u] :=
  List.rtakeWhile_concat_pos _ _ _ (decide_eq_true h)

theorem sinceDrain_concat_drain : sinceDrain (uses ++ [.drain]) = [] :=
  List.rtakeWhile_concat_neg _ _ _ (by simp)

theorem pushed_sinceDrain_concat (h : u ≠ .drain) :
    pushed (sinceDrain (uses ++ [u])) = pushed (sinceDrain uses) ++ u.report?.toList := by
  rw [sinceDrain_concat h, pushed_concat]

theorem boundAfter_concat :
    boundAfter first (uses ++ [u]) = u.bound?.getD (boundAfter first uses) := by
  cases u <;> simp [boundAfter, Use.bound?]

theorem receivedAfter_concat (h : u ≠ .hook) :
    receivedAfter (uses ++ [u]) = (receivedAfter uses).map (· ++ u.report?.toList) := by
  have hsince : sinceHook (uses ++ [u]) = sinceHook uses ++ [u] :=
    List.rtakeWhile_concat_pos _ _ _ (decide_eq_true h)
  have hmem : Use.hook ∈ uses ++ [u] ↔ Use.hook ∈ uses := by simp [h.symm]
  unfold receivedAfter
  rw [hsince, pushed_concat]
  simp only [hmem]
  split <;> rfl

theorem receivedAfter_concat_hook : receivedAfter (uses ++ [.hook]) = some [] := by
  have hsince : sinceHook (uses ++ [.hook]) = [] := List.rtakeWhile_concat_neg _ _ _ (by simp)
  rw [receivedAfter, hsince, if_pos (List.mem_append_right _ List.mem_cons_self)]
  rfl

/-! ## One more push -/

/-- A log that is within its bound keeps the latest reports. -/
theorem kept_push (h : log.kept.length ≤ log.bound) (report : Report) :
    (log.push report).kept = (log.kept ++ [report]).rtake log.bound := by
  unfold push
  split
  · next hzero =>
    have hnone : log.kept = [] := List.length_eq_zero_iff.1 (by omega)
    simp [hzero, hnone]
  · next hbound =>
    unfold List.rtake
    split
    · next hfull => simp [hfull, List.drop_append_of_le_length, Nat.one_le_iff_ne_zero.2 hbound]
    · next hroom =>
      have hdrop : log.kept.length + 1 - log.bound = 0 := by omega
      simp [hdrop]

@[simp] theorem kept_setBound (b : Nat) : (log.setBound b).kept = log.kept.rtake b := rfl

@[simp] theorem bound_push (report : Report) : (log.push report).bound = log.bound := by
  unfold push
  split <;> rfl

theorem bound_pushAll (reports : List Report) : (log.pushAll reports).bound = log.bound := by
  induction reports generalizing log with
  | nil => rfl
  | cons report rest ih => exact ih.trans (bound_push report)

theorem length_rtake {α : Type} (l : List α) (n : Nat) : (l.rtake n).length = min n l.length := by
  rw [List.rtake, List.length_drop]
  omega

theorem rtake_suffix {α : Type} (l : List α) (n : Nat) : l.rtake n <:+ l := List.drop_suffix _ _

namespace KeepsLatest

theorem push (h : KeepsLatest first uses log) (report : Report) :
    KeepsLatest first (uses ++ [.push report]) (log.push report) where
  bound_eq := by
    rw [bound_push, h.bound_eq, boundAfter_concat]
    rfl
  length_le := length_kept_push h.length_le report
  suffix := by
    rw [kept_push h.length_le, pushed_sinceDrain_concat (by simp)]
    obtain ⟨dropped, hpushed⟩ := h.suffix
    refine (rtake_suffix _ _).trans ⟨dropped, ?_⟩
    rw [← hpushed, List.append_assoc]
    rfl
  length_eq hbound := by
    rw [sinceDrain_concat (by simp)] at hbound
    have hlength := h.length_eq fun b hb => hbound b (List.mem_append_left _ hb)
    rw [kept_push h.length_le, length_rtake, bound_push, pushed_sinceDrain_concat (by simp)]
    simp only [List.length_append, hlength, Use.report?, Option.toList_some, List.length_singleton]
    omega
  received_eq := by
    rw [received_push, h.received_eq, receivedAfter_concat (by simp)]
    rfl

theorem setBound (h : KeepsLatest first uses log) (b : Nat) :
    KeepsLatest first (uses ++ [.setBound b]) (log.setBound b) where
  bound_eq := by
    rw [boundAfter_concat]
    rfl
  length_le := (length_rtake log.kept b).trans_le (Nat.min_le_left _ _)
  suffix := by
    rw [pushed_sinceDrain_concat (by simp)]
    simpa [Use.report?] using (rtake_suffix _ b).trans h.suffix
  length_eq hbound := by
    rw [sinceDrain_concat (by simp)] at hbound
    exact absurd (List.mem_append_right _ List.mem_cons_self) (hbound b)
  received_eq := by
    rw [receivedAfter_concat (by simp), ← h.received_eq]
    simp [ReportLog.setBound, Use.report?]

theorem drain (h : KeepsLatest first uses log) :
    KeepsLatest first (uses ++ [.drain]) log.drain.2 where
  bound_eq := by
    rw [boundAfter_concat, ← h.bound_eq]
    rfl
  length_le := Nat.zero_le _
  suffix := List.nil_suffix
  length_eq _ := by
    rw [sinceDrain_concat_drain]
    exact (Nat.min_zero _).symm
  received_eq := by
    rw [receivedAfter_concat (by simp), ← h.received_eq]
    simp [ReportLog.drain, Use.report?]

theorem withHook (h : KeepsLatest first uses log) :
    KeepsLatest first (uses ++ [.hook]) log.withHook where
  bound_eq := by
    rw [boundAfter_concat, ← h.bound_eq]
    rfl
  length_le := h.length_le
  suffix := by
    rw [pushed_sinceDrain_concat (by simp)]
    simpa [Use.report?, ReportLog.withHook] using h.suffix
  length_eq hbound := by
    rw [sinceDrain_concat (by simp)] at hbound
    have hlength := h.length_eq fun b hb => hbound b (List.mem_append_left _ hb)
    rw [pushed_sinceDrain_concat (by simp)]
    simpa [Use.report?, ReportLog.withHook] using hlength
  received_eq := receivedAfter_concat_hook.symm

theorem use (h : KeepsLatest first uses log) (u : Use) :
    KeepsLatest first (uses ++ [u]) (log.use u) := by
  cases u with
  | push report => exact h.push report
  | setBound b => exact h.setBound b
  | drain => exact h.drain
  | hook => exact h.withHook

end KeepsLatest

theorem keepsLatest_ofBound (bound : Nat) : KeepsLatest bound [] (ofBound bound) where
  bound_eq := rfl
  length_le := Nat.zero_le _
  suffix := List.suffix_rfl
  length_eq _ := (Nat.min_zero _).symm
  received_eq := rfl

/-- Every log that comes about keeps the latest reports. -/
theorem keepsLatest_useAll (bound : Nat) (uses : List Use) :
    KeepsLatest bound uses ((ofBound bound).useAll uses) := by
  induction uses using List.reverseRecOn with
  | nil => exact keepsLatest_ofBound bound
  | append_singleton uses u ih =>
      rw [useAll_concat]
      exact ih.use u

end ReportLog
end Statechart
