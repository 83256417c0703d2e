import Statechart.Event.Basic
import Statechart.Expr.Eval
import Statechart.Report

/-!
# Actions

An action sees the running chart only through a `View` and changes it only
through its `Outcome`: the data model it leaves, the events it queues, reports,
output and completion data.  In particular it can neither touch the active
states nor take an event from a queue.
-/

namespace Statechart

/-- Why an action failed. -/
inductive ActionError where
  | expression (error : ExpressionError)
  | failed (action reason : String)
  deriving Repr, DecidableEq

/-- The message of an action error. -/
def ActionError.message : ActionError → String
  | expression error => error.message
  | failed action reason => "action '" ++ action ++ "' failed: " ++ reason

/-- What actions write for people. -/
inductive Output where
  /-- A line of the application log. -/
  | log (label message : String)
  /-- A line on the console. -/
  | line (text : String)
  deriving Repr, DecidableEq

/-- What an action sees. -/
structure View where
  data : DataModel
  evaluate : Evaluator
  /-- The state whose content is being executed. -/
  state : String

/-- What an action did; `failure` tells why it stopped early, if it did. -/
structure Outcome where
  data : DataModel
  /-- Events for the internal queue. -/
  raised : List Event := []
  /-- Events for the derived queue. -/
  sent : List Event := []
  reports : List Report := []
  output : List Output := []
  /-- Completion data, if some was recorded. -/
  completion : Option Value := none
  failure : Option ActionError := none

namespace Outcome

/-- Nothing happened. -/
def idle (data : DataModel) : Outcome := { data }

/-- Nothing happened but a failure. -/
def failing (data : DataModel) (error : ActionError) : Outcome :=
  { data, failure := some error }

/-- Nothing happened but that an expression failed. -/
def misvalued (data : DataModel) (error : ExpressionError) : Outcome :=
  failing data (.expression error)

/-- Goes on with what `next` does on the data that was left, unless there was a
failure. -/
def andThen (first : Outcome) (next : DataModel → Outcome) : Outcome :=
  match first.failure with
  | some _ => first
  | none =>
    let second := next first.data
    { data := second.data
      raised := first.raised ++ second.raised
      sent := first.sent ++ second.sent
      reports := first.reports ++ second.reports
      output := first.output ++ second.output
      completion := second.completion.or first.completion
      failure := second.failure }

@[simp] theorem andThen_of_failure {first : Outcome} {error : ActionError}
    (h : first.failure = some error) (next : DataModel → Outcome) :
    first.andThen next = first := by
  simp [andThen, h]

end Outcome

namespace View

/-- The value of an expression. -/
def value (view : View) (expr : String) : Except ExpressionError Value :=
  view.evaluate expr view.data

/-- The answer of a condition. -/
def holds (view : View) (cond : String) : Except ExpressionError Bool :=
  view.evaluate.holds cond view.data

/-- The same view on other data. -/
def on (view : View) (data : DataModel) : View := { view with data }

end View

/-- Executable content of a chart. -/
inductive Action where
  /-- Logs the value of an expression. -/
  | log (label expr : Option String)
  /-- Writes the value of an expression at a location of the data model. -/
  | assign (location expr : String)
  /-- Queues an internal event. -/
  | raise (event : String)
  /-- Queues a derived event. -/
  | send (event : String) (expr : Option String)
  /-- Runs one of two blocks. -/
  | branch (cond : String) (actions otherwise : List Action)
  /-- Records completion data. -/
  | exitReport (expr : Option String) (names : List String)
  /-- An action of the host. -/
  | custom (space name : String) (run : View → Outcome)
  deriving Inhabited

end Statechart
