import Statechart.Proofs.Report.Latest
import Statechart.Proofs.Session.Skip

/-!
# The reports of a session

A host makes calls, changes the configuration, installs a hook and takes away what was reported
and written, in any order.  Each of these deeds uses the log of the session in one way (`Uses`): a
call pushes the reports that its operations produce, one after the other.  So the log of a session
is at any time a log after the uses of all deeds, and what `takeReports` returns are the latest
reports (`ReturnsLatest`).
-/

namespace Statechart

open ReportLog (Use KeepsLatest)

/-- What a host does with a session. -/
inductive Deed where
  | call (c : Call)
  | withConfig (config : Config)
  | withHook
  | takeReports
  | takeOutput

namespace Session

/-- The session after a deed. -/
def doing (s : Session) : Deed → Session
  | .call c => (s.call c).2
  | .withConfig config => s.withConfig config
  | .withHook => s.withHook
  | .takeReports => s.takeReports.2
  | .takeOutput => s.takeOutput.2

/-- The session after some deeds. -/
def doAll (s : Session) (deeds : List Deed) : Session := deeds.foldl doing s

/-- The reports that some operations produce. -/
def produced (s : Session) : List Operation → List Report
  | [] => []
  | op :: rest =>
    s.ownReports op ++ (s.freshFault? op).toList.map Fault.report ++ (s.perform op).produced rest

/-- How a deed uses the log. -/
inductive Uses (s : Session) : Deed → List Use → Prop where
  | call (c : Call) {ops : List Operation} : Course s c ops (s.call c) →
    Uses s (.call c) ((s.produced ops).map .push)
  | withConfig (config : Config) : Uses s (.withConfig config) [.setBound config.maxReports]
  | withHook : Uses s .withHook [.hook]
  | takeReports : Uses s .takeReports [.drain]
  | takeOutput : Uses s .takeOutput []

/-- How deeds use the log, one after the other. -/
inductive UsesAll : Session → List Deed → List Use → Prop where
  | nil (s : Session) : UsesAll s [] []
  | cons {s : Session} {d : Deed} {rest : List Deed} {uses later : List Use} :
    Uses s d uses → UsesAll (s.doing d) rest later → UsesAll s (d :: rest) (uses ++ later)

variable {s : Session} {d : Deed} {deeds : List Deed} {ops : List Operation} {uses : List Use}

theorem reports_performAll : (s.performAll ops).reports = s.reports.pushAll (s.produced ops) := by
  induction ops generalizing s with
  | nil => rfl
  | cons op rest ih =>
      rw [performAll_cons, ih, reports_perform, ← pushAll_append]
      rfl

/-! ## One deed -/

theorem AtRest.doing (h : AtRest s) (d : Deed) : AtRest (s.doing d) := by
  cases d with
  | call c => exact h.call c
  | withConfig config => exact h.withHost config s.evaluate _ s.output
  | withHook => exact h.withHost s.config s.evaluate _ s.output
  | takeReports => exact h.withHost s.config s.evaluate _ s.output
  | takeOutput => exact h.withHost s.config s.evaluate s.reports []

theorem exists_uses (h : AtRest s) (d : Deed) : ∃ uses, Uses s d uses := by
  cases d with
  | call c =>
      obtain ⟨ops, hcourse⟩ := exists_course h c
      exact ⟨_, .call c hcourse⟩
  | withConfig config => exact ⟨_, .withConfig config⟩
  | withHook => exact ⟨_, .withHook⟩
  | takeReports => exact ⟨_, .takeReports⟩
  | takeOutput => exact ⟨_, .takeOutput⟩

theorem Uses.reports_eq (h : Uses s d uses) (hrest : AtRest s) :
    (s.doing d).reports = s.reports.useAll uses := by
  cases h with
  | @call c ops hcourse =>
      obtain ⟨phase, hclosed⟩ := hcourse.exists_eq_closed hrest
      have hdoing : s.doing (.call c) = (s.performAll ops).closed phase := hclosed
      rw [hdoing, ReportLog.useAll_push, ← reports_performAll]
      rfl
  | _ => rfl

/-- The log is always bounded by the configuration. -/
theorem bound_doing (h : AtRest s) (hbound : s.reports.bound = s.config.maxReports) (d : Deed) :
    (s.doing d).reports.bound = (s.doing d).config.maxReports := by
  cases d with
  | call c =>
      obtain ⟨ops, hcourse⟩ := exists_course h c
      obtain ⟨phase, hclosed⟩ := hcourse.exists_eq_closed h
      have hconfig : (s.performAll ops).config = s.config := sameChart_performAll.config
      have hdoing : s.doing (.call c) = (s.performAll ops).closed phase := hclosed
      rw [hdoing]
      show (s.performAll ops).reports.bound = (s.performAll ops).config.maxReports
      rw [reports_performAll, ReportLog.bound_pushAll, hconfig, hbound]
  | withConfig config => rfl
  | _ => exact hbound

/-! ## All deeds -/

theorem AtRest.exists_usesAll (h : AtRest s) (deeds : List Deed) :
    ∃ uses, UsesAll s deeds uses := by
  induction deeds generalizing s with
  | nil => exact ⟨_, .nil s⟩
  | cons d rest ih =>
      obtain ⟨uses, huses⟩ := exists_uses h d
      obtain ⟨later, hlater⟩ := ih (h.doing d)
      exact ⟨_, .cons huses hlater⟩

theorem UsesAll.reports_eq (h : UsesAll s deeds uses) (hrest : AtRest s) :
    (s.doAll deeds).reports = s.reports.useAll uses := by
  induction h with
  | nil s => rfl
  | @cons s d rest uses later huses _ ih =>
      rw [ReportLog.useAll_append, ← huses.reports_eq hrest]
      exact ih (hrest.doing d)

theorem bound_doAll (h : AtRest s) (hbound : s.reports.bound = s.config.maxReports)
    (deeds : List Deed) : (s.doAll deeds).reports.bound = (s.doAll deeds).config.maxReports := by
  induction deeds generalizing s with
  | nil => exact hbound
  | cons d rest ih => exact ih (h.doing d) (bound_doing h hbound d)

/-! ## The latest reports -/

/-- A session returns the latest reports after some uses of its log. -/
structure ReturnsLatest (first : Nat) (uses : List Use) (s : Session) : Prop where
  /-- The bound that holds is that of the configuration. -/
  bound_eq : s.reports.bound = s.config.maxReports
  latest : KeepsLatest first uses s.reports
  taken : s.takeReports.1 = s.reports.kept
  left : s.takeReports.2 = { s with reports := { s.reports with kept := [] } }

/-- Every log keeps and returns the latest reports, and so does every session. -/
theorem reports_latest :
    (∀ bound uses,
      let log := (ReportLog.ofBound bound).useAll uses
      KeepsLatest bound uses log ∧ log.drain = (log.kept, { log with kept := [] })) ∧
    ∀ {doc : Document} {registry : Registry} {model : Model},
      Model.build doc registry = .ok model → ∀ config evaluate deeds,
        let s := ofModel model config evaluate
        (∃ uses, UsesAll s deeds uses) ∧
          ∀ uses, UsesAll s deeds uses → ReturnsLatest config.maxReports uses (s.doAll deeds) := by
  refine ⟨fun bound uses => ⟨ReportLog.keepsLatest_useAll bound uses, rfl⟩,
    fun {_ _ model} hbuild config evaluate deeds => ?_⟩
  have hrest : AtRest (ofModel model config evaluate) := atRest_ofModel hbuild config evaluate
  refine ⟨hrest.exists_usesAll deeds, fun uses huses => ?_⟩
  have hreports : ((ofModel model config evaluate).doAll deeds).reports =
      (ReportLog.ofBound config.maxReports).useAll uses := huses.reports_eq hrest
  refine ⟨bound_doAll hrest rfl deeds, ?_, rfl, rfl⟩
  rw [hreports]
  exact ReportLog.keepsLatest_useAll _ _

/-- Two reports are produced and one is kept; the hook receives both. -/
theorem reports_latest_grumbler :
    let config : Config := { maxReports := 1 }
    let s := ofModel grumblerModel config .standard
    let deeds : List Deed := [.withHook, .call .start]
    (s.doAll deeds).reports.kept.map Report.message =
        ["guard 'absent' failed: undefined variable 'absent'"] ∧
      (s.doAll deeds).reports.received.map (List.map Report.message) =
        some ["undefined variable 'missing'",
          "guard 'absent' failed: undefined variable 'absent'"] ∧
      (∃ uses, UsesAll s deeds uses) ∧
      ∀ uses, UsesAll s deeds uses → ReturnsLatest config.maxReports uses (s.doAll deeds) := by
  intro config s deeds
  exact ⟨by decide +kernel, by decide +kernel,
    reports_latest.2 build_grumbler config .standard deeds⟩

end Session
end Statechart
