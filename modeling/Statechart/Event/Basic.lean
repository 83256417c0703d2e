import Statechart.Value

/-!
# Events

An event has a name made of dot-separated tokens and may carry data.  Charts
see the event being processed as an object with its name and its data, `null`
if it has none.
-/

namespace Statechart

/-- An event. -/
structure Event where
  name : String
  data : Option Value
  deriving Inhabited

namespace Event

/-- An event without data. -/
def plain (name : String) : Event := ⟨name, none⟩

/-- An event with data. -/
def carrying (name : String) (data : Value) : Event := ⟨name, some data⟩

/-- The event as expressions see it. -/
def toValue (event : Event) : Value :=
  .ofFields [("name", .str event.name), ("data", event.data.getD .null)]

/-- The event raised when executable content fails. -/
def executionError (message : String) : Event :=
  carrying "error.execution" (.obj [("message", .str message)])

/-- The event raised when the state with the given identifier is complete. -/
def completion (id : String) : Event := plain ("done.state." ++ id)

end Event
end Statechart
