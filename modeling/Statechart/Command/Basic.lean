import Statechart.Action.Stock
import Statechart.Document.Loading
import Statechart.Document.Text
import Statechart.Document.Yaml
import Statechart.Engine.Macrostep
import Statechart.Model.Build

/-!
# Commands on charts

`check` builds the chart of a file and `run` drives it through some events.
Charts may use the action `print`, whose lines are returned beside the answer of
the command, as far as the command came.
-/

namespace Statechart

/-- The readers of JSON and YAML that commands load charts with. -/
def Command.readers : Document.Readers := ⟨Document.ofJson, Document.ofYaml⟩

/-- Loads the document of a path as commands do. -/
def Document.load (fs : FileSystem) : Document.Loader := Command.readers.load fs

namespace Command

/-- The namespace of the actions that commands offer to charts. -/
def actionSpace : String := "urn:rstchart:cli"

/-- The actions that commands offer to charts. -/
def registry : Registry := Registry.empty.insert actionSpace "print" Stock.print

/-- Why a command fails. -/
inductive Error where
  | build (error : BuildError)
  | execution (error : ExecutionError)
  /-- A payload is not JSON. -/
  | payload (text : String) (fault : Json.Fault)

/-- The message of an error. -/
def Error.message : Error → String
  | build error => error.message
  | execution error => error.message
  | payload text fault => fault.message text

/-- Builds the chart of a file. -/
def loadModel (fs : FileSystem) (path : String) : Except Error Model := do
  let doc ← (Document.load fs path).mapError .build
  (Model.build doc registry).mapError .build

/-- Splits a text at the first character for which `p` holds, which is left
out. -/
def splitOnce (p : Char → Bool) (text : String) : Option (String × String) :=
  let cs := text.toList
  match cs.dropWhile (!p ·) with
  | [] => none
  | _ :: rest => some (String.ofList (cs.takeWhile (!p ·)), String.ofList rest)

/-- The event that is written as a name, or as a name, `=` and a payload. -/
def eventOf (text : String) : Except Error Event :=
  match splitOnce (· == '=') text with
  | none => .ok (.plain (Text.trim text))
  | some (name, payload) =>
    match Json.read payload with
    | .ok v => .ok (.carrying (Text.trim name) v)
    | .error fault => .error (.payload payload fault)

/-- The line that shows a status. -/
def statusLine (status : Status) : String :=
  let states := "[" ++ ", ".intercalate status.leaves ++ "]"
  let mark := if status.isFinal then " final" else ""
  let data := match status.completion with
    | none => ""
    | some v => " done_data=" ++ v.compact
  states ++ mark ++ data

/-- The words for a kind of report. -/
def kindLabel : ReportKind → String
  | .warning => "warning"
  | .expression => "expression error"
  | .action => "action error"

/-- The line that shows a report. -/
def reportLine (report : Report) : String :=
  let place := match report.state with
    | none => ""
    | some state => " in " ++ state
  "  " ++ kindLabel report.kind ++ place ++ ": " ++ report.message

/-- The console lines among some output. -/
def consoleLines (output : List Output) : List String :=
  output.filterMap fun
    | .line text => some text
    | .log _ _ => none

/-- Checks the chart of a file. -/
def check (fs : FileSystem) (path : String) : Except Error String := do
  let model ← loadModel fs path
  return "Valid chart " ++ model.name ++ " (" ++ toString model.size ++ " states, checksum: " ++
    model.checksum ++ ")"

/-- What a command printed on the way, and its answer. -/
structure Answer where
  printed : List String
  result : Except Error (List String)

/-- The lines that show the end of a call: the status after it and the reports
it left. -/
def callLines (label : String) (s : Session) : List String × Session :=
  let (reports, s) := s.takeReports
  ((label ++ " " ++ statusLine s.status) :: reports.map reportLine, s)

/-- Submits the events that are written, up to the first failure. -/
def runEvents (s : Session) (lines : List String) : List String → Answer
  | [] => ⟨consoleLines s.output, .ok lines⟩
  | text :: rest =>
    match eventOf text with
    | .error error => ⟨consoleLines s.output, .error error⟩
    | .ok event =>
      match s.submit event with
      | (some error, s) => ⟨consoleLines s.output, .error (.execution error)⟩
      | (none, s) =>
        let (more, s) := callLines event.name s
        runEvents s (lines ++ more) rest

/-- Starts the chart of a file and submits the events that are written. -/
def run (fs : FileSystem) (path : String) (config : Config) (events : List String) : Answer :=
  match loadModel fs path with
  | .error error => ⟨[], .error error⟩
  | .ok model =>
    match (Session.ofModel model config .standard).start with
    | (some error, s) => ⟨consoleLines s.output, .error (.execution error)⟩
    | (none, s) =>
      let (lines, s) := callLines "start" s
      runEvents s lines events

end Command
end Statechart
