import Statechart.Command.Basic

/-!
# Command lines

A command line names a command and the file of a chart.  Options stand anywhere:
`--config` names the configuration file, and `--event`, which may come again and
again, names an event for `run`.  The value of an option is the next word, or
follows a long name behind `=`.
-/

namespace Statechart
namespace Command

/-- The commands with their charts. -/
inductive Task where
  | check (path : String)
  | run (path : String) (events : List String)
  | repl (path : String)
  deriving Repr, DecidableEq

/-- What a command line asks for. -/
structure Request where
  config : Option String
  task : Task
  deriving Repr, DecidableEq

namespace Request

/-- The words of a command line by what they are. -/
structure Words where
  config : Option String := none
  events : List String := []
  plain : List String := []

/-- Parts a long option from the value behind its `=`. -/
def partValue (word : String) : List String :=
  if "--".isPrefixOf word then
    match splitOnce (· == '=') word with
    | some (option, value) => [option, value]
    | none => [word]
  else [word]

/-- Sorts words by what they are. -/
def sort (words : Words) : List String → Option Words
  | [] => some words
  | [word] =>
    if "-".isPrefixOf word then none else some { words with plain := words.plain ++ [word] }
  | word :: value :: rest =>
    if word = "--config" || word = "-c" then sort { words with config := some value } rest
    else if word = "--event" || word = "-e" then
      sort { words with events := words.events ++ [value] } rest
    else if "-".isPrefixOf word then none
    else sort { words with plain := words.plain ++ [word] } (value :: rest)

/-- Reads a command line. -/
def read (words : List String) : Option Request := do
  let sorted ← sort {} (words.flatMap partValue)
  let task ← match sorted.plain, sorted.events with
    | ["check", path], [] => some (.check path)
    | ["run", path], events => some (.run path events)
    | ["repl", path], [] => some (.repl path)
    | _, _ => none
  return ⟨sorted.config, task⟩

/-- The answer to a command line that cannot be read. -/
def usage : String :=
  "Usage: rstchart [--config <file>] check <chart>\n" ++
  "       rstchart [--config <file>] run <chart> [--event <name[=payload]>]...\n" ++
  "       rstchart [--config <file>] repl <chart>"

end Request
end Command
end Statechart
