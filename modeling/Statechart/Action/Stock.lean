import Statechart.Action.Basic
import Statechart.Registry

/-!
# Stock actions

A few small action types for trying charts out: `hello` logs a greeting, `ping`
raises an event, `greet` writes a variable, `explode` fails, and `script` runs a
list of steps that reach everything an action may do.  `print` writes lines on
the console.
-/

namespace Statechart
namespace Stock

/-- The text attribute `name`; `none` if it is absent or no text. -/
def textAttribute (name : String) (attributes : Fields Value) : Option String :=
  (Fields.get? name attributes).bind Value.text?

/-- Logs a greeting to `name`. -/
def hello : ActionType where
  name := "Hello"
  make attributes :=
    let greeting (name : String) (view : View) : Outcome :=
      { data := view.data, output := [.log "hello" ("Hello " ++ name)] }
    match Fields.get? "name" attributes with
    | none => some (greeting "")
    | some v => v.text?.map greeting

/-- Raises the event `ping`; takes no attributes. -/
def ping : ActionType where
  name := "Ping"
  make attributes :=
    if attributes.isEmpty then
      some fun view => { data := view.data, raised := [.plain "ping"] }
    else none

/-- Writes `value` to the variable `greeting` and raises `greeted`. -/
def greet : ActionType where
  name := "Greet"
  make attributes :=
    (textAttribute "value" attributes).map fun value view =>
      match view.data.assign "greeting" (.str value) with
      | .error e => .misvalued view.data e
      | .ok data => { data, raised := [.plain "greeted"] }

/-- Fails; takes no attributes. -/
def explode : ActionType where
  name := "Explode"
  make attributes :=
    if attributes.isEmpty then
      some fun view => .failing view.data (.failed "explode" "boom")
    else none

/-- The text of an argument of a step; an argument of another kind counts as an
empty text. -/
def argText (args : List Value) (n : Nat) : String :=
  (args[n]?.bind Value.text?).getD ""

/-- An argument of a step. -/
def argValue (args : List Value) (n : Nat) : Value :=
  args[n]?.getD .null

/-- The event that a step names, with its data. -/
def argEvent (args : List Value) : Event := ⟨argText args 0, args[1]?⟩

/-- The kind of report that a step names. -/
def reportKind (word : String) : ReportKind :=
  if word = "warning" then .warning
  else if word = "expression" then .expression
  else .action

/-- Runs one step of a script. -/
def runStep (view : View) (word : String) (args : List Value) : Outcome :=
  let data := view.data
  match word with
  | "raise" => { data, raised := [argEvent args] }
  | "send" => { data, sent := [argEvent args] }
  | "report" =>
    { data, reports := [⟨reportKind (argText args 0), some view.state, argText args 1⟩] }
  | "declare" => .idle (data.declare (argText args 0) (argValue args 1))
  | "assign" =>
    match data.assign (argText args 0) (argValue args 1) with
    | .error e => .misvalued data e
    | .ok data => .idle data
  | "eval" =>
    match view.value (argText args 0) with
    | .error e => .misvalued data e
    | .ok v => .idle (data.declare (argText args 1) v)
  | "cond" =>
    match view.holds (argText args 0) with
    | .error e => .misvalued data e
    | .ok b => .idle (data.declare (argText args 1) (.bool b))
  | "get" =>
    .idle (data.declare (argText args 1) ((data.get? (argText args 0)).getD .null))
  | "state" => .idle (data.declare (argText args 0) (.str view.state))
  | "complete" => { data, completion := some (argValue args 0) }
  | "log" => { data, output := [.log (argText args 0) (argText args 1)] }
  | _ => .failing data (.failed word (argText args 0))

/-- Runs the steps of a script up to the first failure. -/
def runSteps (view : View) : List (List Value) → Outcome
  | [] => .idle view.data
  | step :: rest =>
    (runStep view (argText step 0) (step.drop 1)).andThen fun data =>
      runSteps (view.on data) rest

/-- The lists in an array of arrays. -/
def lists? : List Value → Option (List (List Value))
  | [] => some []
  | .arr items :: rest => (lists? rest).map (items :: ·)
  | _ :: _ => none

/-- Runs the steps of the attribute `steps`. -/
def script : ActionType where
  name := "Script"
  make attributes :=
    match Fields.get? "steps" attributes with
    | some (.arr items) => (lists? items).map fun steps view => runSteps view steps
    | _ => none

/-- An attribute that may be absent or `null` and is a text otherwise. -/
def optionalText (name : String) (attributes : Fields Value) : Option (Option String) :=
  match Fields.get? name attributes with
  | none => some none
  | some .null => some none
  | some (.str s) => some (some s)
  | some _ => none

/-- The mark in front of a line that a chart writes. -/
def lineMark : String := "> "

/-- Writes the value of `expr`, or else `text`, as a line on the console. -/
def print : ActionType where
  name := "Print"
  make attributes := do
    let text ← optionalText "text" attributes
    let expr ← optionalText "expr" attributes
    return fun view =>
      match expr with
      | none => { data := view.data, output := [.line (lineMark ++ text.getD "")] }
      | some expr =>
        match view.value expr with
        | .error e => .misvalued view.data e
        | .ok v => { data := view.data, output := [.line (lineMark ++ v.display)] }

/-- The stock action types that charts can be tried out with, by local name. -/
def named : List (String × ActionType) :=
  [("hello", hello), ("ping", ping), ("greet", greet), ("explode", explode),
    ("script", script)]

/-- The stock action type with a local name. -/
def find? (name : String) : Option ActionType := named.lookup name

/-- A registry of the stock action types under one namespace. -/
def registry (space : String) : Registry :=
  named.foldl (fun registry (name, type) => registry.insert space name type) .empty

end Stock
end Statechart
