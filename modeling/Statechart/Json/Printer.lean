import Statechart.Decimal.Notation
import Statechart.Value

/-!
# Writing JSON

Values are written in two layouts.  `Value.compact` has no space at all and is
the form used inside messages, logs and checksums; `Value.pretty` puts every
item on a line of its own, indented by two spaces a level, and leaves empty
arrays and objects as `[]` and `{}`.

In strings the quote, the backslash and the control characters below `U+0020`
are escaped, the latter by a letter where there is one and by four lower-case
hexadecimal digits otherwise; every other character stands for itself.
-/

namespace Statechart
namespace Json

/-- A hexadecimal digit below sixteen, in lower case. -/
def hexDigit (n : Nat) : Char :=
  if n < 10 then Char.ofNat ('0'.toNat + n) else Char.ofNat ('a'.toNat + n - 10)

/-- A character as it is written inside a string. -/
def escape (c : Char) : List Char :=
  if c = '"' then ['\\', '"']
  else if c = '\\' then ['\\', '\\']
  else if c = '\n' then ['\\', 'n']
  else if c = '\t' then ['\\', 't']
  else if c = '\r' then ['\\', 'r']
  else if c.toNat = 8 then ['\\', 'b']
  else if c.toNat = 12 then ['\\', 'f']
  else if c.toNat < 0x20 then
    ['\\', 'u', '0', '0', hexDigit (c.toNat / 16), hexDigit (c.toNat % 16)]
  else [c]

/-- A string between quotes. -/
def quoted (s : String) : String :=
  "\"" ++ String.ofList (s.toList.flatMap escape) ++ "\""

/-- The text of a float; the values no JSON number can hold become `null`. -/
def floatText (x : Float) : String :=
  if x.isFinite then Decimal.floatText x else "null"

end Json

namespace Value

mutual

/-- The value as JSON without spaces. -/
def compact : Value → String
  | null => "null"
  | bool b => if b then "true" else "false"
  | int n => toString n
  | float x => Json.floatText x
  | str s => Json.quoted s
  | arr [] => "[]"
  | arr (x :: xs) => "[" ++ compact x ++ compactItems xs ++ "]"
  | obj [] => "\x7b\x7d"
  | obj ((key, x) :: xs) =>
    "\x7b" ++ Json.quoted key ++ ":" ++ compact x ++ compactFields xs ++ "\x7d"

/-- The items behind the first one, each after a comma. -/
def compactItems : List Value → String
  | [] => ""
  | x :: xs => "," ++ compact x ++ compactItems xs

/-- The fields behind the first one, each after a comma. -/
def compactFields : List (String × Value) → String
  | [] => ""
  | (key, x) :: xs => "," ++ Json.quoted key ++ ":" ++ compact x ++ compactFields xs

end

/-- A line break and the indentation of a level. -/
def newLine (level : Nat) : String :=
  "\n" ++ String.ofList (List.replicate (2 * level) ' ')

mutual

/-- The value as indented JSON, its first line at the given level. -/
def prettyAt (level : Nat) : Value → String
  | arr (x :: xs) =>
    "[" ++ newLine (level + 1) ++ prettyAt (level + 1) x ++ prettyItems (level + 1) xs ++
      newLine level ++ "]"
  | obj ((key, x) :: xs) =>
    "\x7b" ++ newLine (level + 1) ++ Json.quoted key ++ ": " ++ prettyAt (level + 1) x ++
      prettyFields (level + 1) xs ++ newLine level ++ "\x7d"
  | arr [] => "[]"
  | obj [] => "\x7b\x7d"
  | null => "null"
  | bool b => if b then "true" else "false"
  | int n => toString n
  | float x => Json.floatText x
  | str s => Json.quoted s

/-- The items behind the first one, each on a line of its own. -/
def prettyItems (level : Nat) : List Value → String
  | [] => ""
  | x :: xs => "," ++ newLine level ++ prettyAt level x ++ prettyItems level xs

/-- The fields behind the first one, each on a line of its own. -/
def prettyFields (level : Nat) : List (String × Value) → String
  | [] => ""
  | (key, x) :: xs =>
    "," ++ newLine level ++ Json.quoted key ++ ": " ++ prettyAt level x ++
      prettyFields level xs

end

/-- The value as indented JSON. -/
def pretty (v : Value) : String := prettyAt 0 v

/-- The text of a value in a log line: a string stands for itself, any other
value is written compactly. -/
def display : Value → String
  | str s => s
  | v => v.compact

end Value
end Statechart
