/-!
# Configuration

What a host can choose for a session: the number of microsteps in one macrostep,
what a failing guard or action leads to, and the number of reports that are
kept.
-/

namespace Statechart

/-- What a failing guard or action leads to. -/
inductive ErrorPolicy where
  /-- It is reported and raised as an event, and the chart goes on. -/
  | skip
  /-- It is reported and ends the macrostep with an error. -/
  | abort
  deriving Repr, DecidableEq

/-- The name of a policy. -/
def ErrorPolicy.name : ErrorPolicy → String
  | skip => "skip"
  | abort => "abort"

/-- The configuration of a session. -/
structure Config where
  maxMicrosteps : Nat := 1000
  policy : ErrorPolicy := .skip
  maxReports : Nat := 256
  deriving Repr, DecidableEq

end Statechart
