import Statechart.Value

/-!
# The status of a session

What a session shows of itself: its phase, its active states and its completion
data.
-/

namespace Statechart

/-- The phases of a session. -/
inductive Phase where
  | uninitialized
  | running
  /-- The chart is complete and ignores further events. -/
  | final
  /-- The chart did not settle and was stopped. -/
  | halted
  deriving Repr, DecidableEq

/-- The name of a phase. -/
def Phase.name : Phase → String
  | uninitialized => "uninitialized"
  | running => "running"
  | final => "final"
  | halted => "halted"

/-- What a session shows of itself. -/
structure Status where
  /-- The active states without active children, in document order. -/
  leaves : List String
  /-- All active states, in document order. -/
  active : List String
  phase : Phase
  completion : Option Value

namespace Status

/-- The status before the start. -/
def uninitialized : Status := ⟨[], [], .uninitialized, none⟩

/-- Holds if the chart is complete. -/
def isFinal (status : Status) : Bool := status.phase == .final

/-- Holds if a state is active. -/
def isActive (status : Status) (id : String) : Bool := status.active.contains id

end Status
end Statechart
