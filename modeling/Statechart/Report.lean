/-!
# Reports

A report tells the host about a problem that does not stop the chart.  A report
log keeps the latest reports up to a bound, oldest first, until they are
drained.  A hook, once installed, receives every report when it is produced,
also those that the log drops at once.
-/

namespace Statechart

/-- What a report is about: harmless misuse, a failed expression, or a failed
action. -/
inductive ReportKind where
  | warning
  | expression
  | action
  deriving Repr, DecidableEq

/-- A report about the running chart. -/
structure Report where
  kind : ReportKind
  /-- The state whose content or transition was being executed, if any. -/
  state : Option String
  message : String
  deriving Repr, DecidableEq

/-- The reports of one session. -/
structure ReportLog where
  /-- The reports that are kept, oldest first. -/
  kept : List Report
  /-- The number of reports that can be kept. -/
  bound : Nat
  /-- What an installed hook received, oldest first. -/
  received : Option (List Report)

namespace ReportLog

/-- A log without reports and without a hook. -/
def ofBound (bound : Nat) : ReportLog := ⟨[], bound, none⟩

/-- Installs a hook. -/
def withHook (log : ReportLog) : ReportLog := { log with received := some [] }

/-- Changes the bound; the oldest reports make room. -/
def setBound (log : ReportLog) (bound : Nat) : ReportLog :=
  { log with kept := log.kept.drop (log.kept.length - bound), bound := bound }

/-- Adds a report; in a full log the oldest one makes room. -/
def push (log : ReportLog) (report : Report) : ReportLog :=
  let received := log.received.map (· ++ [report])
  if log.bound = 0 then { log with received := received }
  else
    let kept := if log.kept.length = log.bound then log.kept.drop 1 else log.kept
    { log with kept := kept ++ [report], received := received }

/-- Adds reports one after the other. -/
def pushAll (log : ReportLog) (reports : List Report) : ReportLog :=
  reports.foldl push log

/-- The reports that are kept, and the log without them. -/
def drain (log : ReportLog) : List Report × ReportLog :=
  (log.kept, { log with kept := [] })

/-- A log that is within its bound stays within it. -/
theorem length_kept_push {log : ReportLog} (h : log.kept.length ≤ log.bound)
    (report : Report) : (log.push report).kept.length ≤ (log.push report).bound := by
  unfold push
  split
  · exact h
  · next hbound =>
    split
    · next hfull => simp [hfull]; omega
    · next hroom => simp; omega

@[simp] theorem received_push (log : ReportLog) (report : Report) :
    (log.push report).received = log.received.map (· ++ [report]) := by
  unfold push
  split <;> rfl

end ReportLog
end Statechart
