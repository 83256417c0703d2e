import Statechart.Action.Basic

/-!
# Running blocks of actions

The actions of a block run in order and the first failure ends the block, with
every block around it.  Each built-in action evaluates before it changes
anything, so an action that fails has changed nothing; an action of the host
keeps what it did before it failed.
-/

namespace Statechart
namespace Action

/-- Logs the value of an expression, or an empty message. -/
def runLog (view : View) (label expr : Option String) : Outcome :=
  match expr with
  | none => { data := view.data, output := [.log (label.getD "") ""] }
  | some expr =>
    match view.value expr with
    | .error e => .misvalued view.data e
    | .ok v => { data := view.data, output := [.log (label.getD "") v.display] }

/-- Writes the value of an expression at a location. -/
def runAssign (view : View) (location expr : String) : Outcome :=
  match view.value expr with
  | .error e => .misvalued view.data e
  | .ok v =>
    match view.data.assign location v with
    | .error e => .misvalued view.data e
    | .ok data => .idle data

/-- Queues a derived event that carries the value of an expression, if there is
one. -/
def runSend (view : View) (event : String) (expr : Option String) : Outcome :=
  match expr with
  | none => { data := view.data, sent := [.plain event] }
  | some expr =>
    match view.value expr with
    | .error e => .misvalued view.data e
    | .ok v => { data := view.data, sent := [.carrying event v] }

/-- The values of the named variables, added to the given fields. -/
def gather (data : DataModel) : List String → Fields Value → Except ActionError (Fields Value)
  | [], fields => .ok fields
  | name :: rest, fields =>
    match data.get? name with
    | none => .error (.failed "exit" ("undefined variable '" ++ name ++ "' in namelist"))
    | some v => gather data rest (Fields.put name v fields)

/-- The completion data of an exit: the value of its expression, or an object of
the named variables in which the value is the member `expr`. -/
def completionData (view : View) (expr : Option String) (names : List String) :
    Except ActionError Value :=
  let value : Except ActionError (Option Value) := match expr with
    | none => .ok none
    | some expr => (view.value expr).map some |>.mapError .expression
  match value with
  | .error e => .error e
  | .ok value =>
    if names.isEmpty then .ok (value.getD .null)
    else
      match gather view.data names [] with
      | .error e => .error e
      | .ok fields =>
        match value with
        | none => .ok (.obj fields)
        | some v => .ok (.obj (Fields.put "expr" v fields))

/-- Records completion data. -/
def runExitReport (view : View) (expr : Option String) (names : List String) : Outcome :=
  match completionData view expr names with
  | .error e => .failing view.data e
  | .ok v => { data := view.data, completion := some v }

mutual

/-- Runs one action. -/
def run (view : View) : Action → Outcome
  | log label expr => runLog view label expr
  | assign location expr => runAssign view location expr
  | raise event => { data := view.data, raised := [.plain event] }
  | send event expr => runSend view event expr
  | branch cond actions otherwise =>
    match view.holds cond with
    | .error e => .misvalued view.data e
    | .ok true => runBlock view actions
    | .ok false => runBlock view otherwise
  | exitReport expr names => runExitReport view expr names
  | custom _ _ run => run view

/-- Runs a block of actions. -/
def runBlock (view : View) : List Action → Outcome
  | [] => .idle view.data
  | action :: rest => (run view action).andThen fun data => runBlock (view.on data) rest

end

end Action
end Statechart
