import Statechart.Command.Basic
import Statechart.Command.Editing
import Statechart.Text.Lowercase

/-!
# The interactive command

`repl` starts a chart and answers one line after the other.  What it writes is
gathered as one text.  Every answer ends with an empty line, and lines that a
chart prints come before the answer to the command that caused them.
-/

namespace Statechart
namespace Repl

open Command

/-- A chart that is driven line by line. -/
structure Shell where
  model : Model
  config : Config
  session : Session
  /-- The name of the session in what is written. -/
  label : String

/-- The answer to `help`. -/
def helpText : String :=
"
Available commands:
  help                      Show this help

  send <event> [payload]    Submit an event (payload is JSON)
  status                    Show the active configuration
  data                      Show the data model
  reports                   Show and clear diagnostics
  restart                   Start a fresh session of the chart

  quit, exit                Exit the REPL
"

/-- The name of a phase in an answer. -/
def phaseName : Phase → String
  | .uninitialized => "Uninitialized"
  | .running => "Running"
  | .final => "Final"
  | .halted => "Halted"

/-- Text lines, each ended. -/
def ended (lines : List String) : String := String.join (lines.map (· ++ "\n"))

/-- Starts a session; what it prints and the line that greets it, or the error
that ended it. -/
def begin (model : Model) (config : Config) (label : String) :
    List String × Except Error (Session × String) :=
  match (Session.ofModel model config .standard).start with
  | (some error, s) => (consoleLines s.output, .error (.execution error))
  | (none, s) =>
    let (output, s) := s.takeOutput
    (consoleLines output, .ok (s, "session " ++ label ++ " " ++ statusLine s.status))

/-- What a line leads to. -/
inductive Reply where
  | answer (text : String)
  | failure (error : Error)
  | leave

/-- The event of a `send` command. -/
def sentEvent (rest : String) : Except Error Event :=
  match splitOnce Text.isBlank rest with
  | some (name, payload) => eventOf (name ++ "=" ++ payload)
  | none => eventOf rest

/-- Answers `send`. -/
def send (shell : Shell) (rest : String) : List String × Reply × Shell :=
  if rest = "" then ([], .answer "Usage: send <event> [payload_json]", shell)
  else
    match sentEvent rest with
    | .error error => ([], .failure error, shell)
    | .ok event =>
      let (error, s) := shell.session.submit event
      let (output, s) := s.takeOutput
      match error with
      | some error =>
        (consoleLines output, .failure (.execution error), { shell with session := s })
      | none =>
        let (reports, s) := s.takeReports
        let lines := statusLine s.status :: reports.map reportLine
        (consoleLines output, .answer ("\n".intercalate lines), { shell with session := s })

/-- Answers `restart`; after a failure the old session stays. -/
def restart (shell : Shell) : List String × Reply × Shell :=
  match begin shell.model shell.config shell.label with
  | (printed, .error error) => (printed, .failure error, shell)
  | (printed, .ok (session, greeting)) => (printed, .answer greeting, { shell with session })

/-- Answers `status`. -/
def statusText (status : Status) : String :=
  statusLine status ++ "\nactive: " ++ ", ".intercalate status.active ++ "\nphase: " ++
    phaseName status.phase

/-- Answers `reports`. -/
def reports (shell : Shell) : Reply × Shell :=
  let (reports, session) := shell.session.takeReports
  let text := if reports.isEmpty then "No reports" else "\n".intercalate (reports.map reportLine)
  (.answer text, { shell with session })

/-- Executes a command with the text behind it; what the chart printed comes
first. -/
def execute (shell : Shell) (command rest : String) : List String × Reply × Shell :=
  if command = "help" || command = "?" then ([], .answer helpText, shell)
  else if command = "quit" || command = "exit" || command = "q" then ([], .leave, shell)
  else if command = "send" || command = "s" then send shell rest
  else if command = "status" || command = "st" then
    ([], .answer (statusText shell.session.status), shell)
  else if command = "data" || command = "d" then
    ([], .answer shell.session.data.toValue.pretty, shell)
  else if command = "reports" || command = "r" then ([], reports shell)
  else if command = "restart" then restart shell
  else
    ([], .answer ("Unknown command: " ++ command ++ ". Type 'help' for available commands."), shell)

/-- Answers a line: what is written, and the shell unless it is left. -/
def answer (shell : Shell) (line : String) : String × Option Shell :=
  let line := Text.trim line
  if line = "" then ("", some shell)
  else
    let (command, rest) := (splitOnce Text.isBlank line).getD (line, "")
    let (printed, reply, shell) := execute shell (Text.lowercase command) (Text.trim rest)
    let written := ended printed
    match reply with
    | .answer text => (written ++ ended [text, ""], some shell)
    | .failure error => (written ++ ended ["Error: " ++ error.message, ""], some shell)
    | .leave => (written, none)

/-- Answers lines, as they are typed, until the shell is left or the lines end. -/
def answerAll (shell : Shell) : List String → String
  | [] => "^D\n"
  | line :: rest =>
    match answer shell (Editing.typed line) with
    | (written, none) => written
    | (written, some shell) => written ++ answerAll shell rest

/-- Opens the shell on the chart of a file: what is written, and the shell or
the error. -/
def openShell (fs : FileSystem) (path : String) (config : Config) (label : String) :
    String × Except Error Shell :=
  match loadModel fs path with
  | .error error => ("", .error error)
  | .ok model =>
    let title := "rstchart " ++ model.name ++ " (checksum: " ++ model.checksum ++ ")"
    match begin model config label with
    | (printed, .error error) => (ended (title :: printed), .error error)
    | (printed, .ok (session, greeting)) =>
      (ended (title :: printed ++ [greeting, "Type 'help' for available commands.", ""]),
        .ok ⟨model, config, session, label⟩)

/-- Runs the shell on the chart of a file with the given input lines: what is
written, and the error if the chart did not start. -/
def run (fs : FileSystem) (path : String) (config : Config) (label : String)
    (lines : List String) : String × Option Error :=
  match openShell fs path config label with
  | (written, .error error) => (written, some error)
  | (written, .ok shell) => (written ++ answerAll shell lines, none)

end Repl
end Statechart
