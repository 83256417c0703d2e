import Statechart.Command.Repl
import Statechart.Command.Request
import Statechart.Config.Reading

/-!
# The program

The commands work on a snapshot of the file system.  The program grows the
snapshot by the files that loading asks for, until none is missing that the disk
has, and prints what a command answers.
-/

namespace Statechart
namespace Console

/-- What the disk has at a place. -/
def look (place : List String) : IO (Option FileEntry) := do
  try
    let real ← IO.FS.realPath ("/" ++ "/".intercalate place)
    if ← real.isDir then return some .directory
    return some (.file (String.fromUTF8? (← IO.FS.readBinFile real)))
  catch _ => return none

/-- Adds what the disk has on the way along a path. -/
def fetch (fs : FileSystem) (path : String) : IO FileSystem := do
  let names := FileSystem.namesOf path
  let base := if FileSystem.isAbsolute path then [] else fs.here
  let mut fs := fs
  for n in List.range names.length do
    let way := "/".intercalate (base ++ names.take (n + 1))
    let place := FileSystem.normalNames way
    if (fs.entry? place).isNone then
      if let some entry ← look place then
        fs := fs.add place entry
  return fs

/-- Grows a snapshot as long as a file is missing that the disk has. -/
partial def gather (missing? : FileSystem → Option String) (fs : FileSystem) : IO FileSystem := do
  match missing? fs with
  | none => return fs
  | some path =>
    let grown ← fetch fs path
    if grown.entries.length = fs.entries.length then return fs
    gather missing? grown

/-- The file that building a chart misses. -/
def missingChart? (path : String) (fs : FileSystem) : Option String :=
  match Command.loadModel fs path with
  | .error (.build (.file missed .notFound)) => some missed
  | _ => none

/-- The file that a configuration misses. -/
def missingConfig? (env : Config.Environment) (path : Option String) (fs : FileSystem) :
    Option String :=
  match Config.load fs env path with
  | .error (.file missed .notFound) => some missed
  | _ => none

/-- The environment variables that matter. -/
def environment : IO Config.Environment := do
  let names := [Config.fileVariable, Config.microstepsVariable, Config.policyVariable,
    Config.reportsVariable]
  let values ← names.mapM fun name => return (name, ← IO.getEnv name)
  return fun name => (values.lookup name).join

/-- A fresh name for a session. -/
def sessionLabel : IO String := do
  let bytes ← IO.getRandomBytes 16
  let digits := bytes.toList.flatMap fun b =>
    [Nat.digitChar (b.toNat / 16), Nat.digitChar (b.toNat % 16)]
  return String.ofList digits

/-- Answers the lines of the standard input. -/
partial def answerLines (input output : IO.FS.Stream) (shell : Repl.Shell) : IO Unit := do
  let line ← input.getLine
  if line.isEmpty then
    output.putStr (Repl.answerAll shell [])
    output.flush
  else
    let (written, next) := Repl.answer shell line
    output.putStr written
    output.flush
    if let some shell := next then
      answerLines input output shell

/-- Runs the interactive command. -/
def interact (fs : FileSystem) (path : String) (config : Config) :
    IO (Option Command.Error) := do
  let output ← IO.getStdout
  let (written, opened) := Repl.openShell fs path config (← sessionLabel)
  output.putStr written
  output.flush
  match opened with
  | .error error => return some error
  | .ok shell =>
    answerLines (← IO.getStdin) output shell
    return none

/-- Tells the outcome of a command by an exit code. -/
def report : Option Command.Error → IO UInt32
  | none => return 0
  | some error => do
    IO.eprintln ("Error: " ++ error.message)
    return 1

/-- Runs a command. -/
def perform (fs : FileSystem) (config : Config) : Command.Task → IO UInt32
  | .check path => do
    match Command.check (← gather (missingChart? path) fs) path with
    | .ok line => IO.println line; return 0
    | .error error => report (some error)
  | .run path events => do
    let answer := Command.run (← gather (missingChart? path) fs) path config events
    IO.print (Repl.ended answer.printed)
    match answer.result with
    | .ok lines => IO.print (Repl.ended lines); return 0
    | .error error => report (some error)
  | .repl path => do
    report (← interact (← gather (missingChart? path) fs) path config)

/-- Runs a command line. -/
def execute (args : List String) : IO UInt32 := do
  match Command.Request.read args with
  | none =>
    IO.eprintln Command.Request.usage
    return 2
  | some request =>
    let env ← environment
    let fs := FileSystem.empty (FileSystem.normalNames (← IO.currentDir).toString)
    let fs ← gather (missingConfig? env request.config) fs
    match Config.load fs env request.config with
    | .error error =>
      IO.eprintln ("Config error: " ++ error.message)
      return 1
    | .ok config => perform fs config request.task

end Console
end Statechart

def main (args : List String) : IO UInt32 := Statechart.Console.execute args
