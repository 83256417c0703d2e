import Statechart.Expr.Basic
import Statechart.Text.Letter
import Statechart.Text.Blank

/-!
# Reading expressions

The grammar, loosest binding first; blanks may stand between tokens:

* disjunction: conjunctions joined by `||`;
* conjunction: negations joined by `&&`;
* negation: `!` before a negation, where `!` is not the start of `!=`, or a
  comparison;
* comparison: a sum, or two sums joined by one of `==`, `!=`, `>=`, `<=`, `>`,
  `<`;
* sum: operands joined by `+` or `-`;
* operand: an expression in parentheses, a string, a number or a word.

Joined operands group to the left.  Only parentheses nest, so each level is a
combinator over the reader of what stands in parentheses, and `nested` applies
them to themselves as often as there can be parentheses.
-/

namespace Statechart
namespace Expr

open Text

/-- A parser takes the characters that are left and answers a result with the
rest. -/
abbrev Parser (α : Type) := List Char → Except Fault (α × List Char)

/-! ## Operands -/

/-- Reads a string behind its quote; a backslash stands before a character that
is taken as it is. -/
def stringTail (quote : Char) (done : List Char) : Parser Expr
  | [] => .error .openString
  | c :: rest =>
    if c = quote then .ok (literal (.str (String.ofList done.reverse)), rest)
    else if c = '\\' then
      match rest with
      | [] => .error .openString
      | e :: rest => stringTail quote (e :: done) rest
    else stringTail quote (c :: done) rest

/-- Holds of the characters of a word. -/
def isWordChar (c : Char) : Bool :=
  isAlphanumeric c || c == '_' || c == '.'

/-- Holds of a path with an empty segment inside or at its end. -/
def hasGap : List Char → Bool
  | [] => false
  | '.' :: [] => true
  | '.' :: '.' :: _ => true
  | _ :: rest => hasGap rest

/-- The expression that a word stands for. -/
def ofWord (word : List Char) : Except Fault Expr :=
  let text := String.ofList word
  if text = "true" then .ok (literal (.bool true))
  else if text = "false" then .ok (literal (.bool false))
  else if text = "null" then .ok (literal .null)
  else if hasGap word then .error (.badPath text)
  else .ok (path text)

/-- Reads a word. -/
def word : Parser Expr := fun cs =>
  (ofWord (cs.takeWhile isWordChar)).map fun e => (e, cs.dropWhile isWordChar)

/-- The value of decimal digits. -/
def digitsValue (ds : List Char) : Nat :=
  ds.foldl (fun n c => n * 10 + (c.toNat - '0'.toNat)) 0

/-- The float nearest to the decimal with the given digits before and behind
the point. -/
def decimal (negative : Bool) (whole fraction : List Char) : Float :=
  let size := Float.ofScientific (digitsValue (whole ++ fraction)) true fraction.length
  if negative then -size else size

/-- The literal of a number as it was written: `fraction` holds the digits
behind the point, if there is one. -/
def ofNumeral (negative : Bool) (whole : List Char) (fraction : Option (List Char)) :
    Option Expr :=
  let size : Int := digitsValue whole
  let n := if negative then -size else size
  if whole.isEmpty && (fraction.getD []).isEmpty then none
  else if fraction.isNone && Value.fitsInt n then some (literal (.int n))
  else
    let x := decimal negative whole (fraction.getD [])
    if x.isFinite then some (literal (.float x)) else none

/-- Splits a number off: its sign, its digits, those behind its point, and the
rest. -/
def scanNumber (cs : List Char) : Bool × List Char × Option (List Char) × List Char :=
  let (negative, cs) := match cs with
    | '-' :: rest => (true, rest)
    | cs => (false, cs)
  let whole := cs.takeWhile Char.isDigit
  match cs.dropWhile Char.isDigit with
  | '.' :: rest =>
    (negative, whole, some (rest.takeWhile Char.isDigit), rest.dropWhile Char.isDigit)
  | rest => (negative, whole, none, rest)

/-- Reads a number. -/
def number : Parser Expr := fun cs =>
  let (negative, whole, fraction, rest) := scanNumber cs
  match ofNumeral negative whole fraction with
  | some e => .ok (e, rest)
  | none => .error (.badNumber (String.ofList (cs.take (cs.length - rest.length))))

/-- Reads an operand; `inner` reads what stands in parentheses. -/
def operand (inner : Parser Expr) : Parser Expr := fun cs =>
  match skipBlanks cs with
  | [] => .error .ends
  | c :: rest =>
    if c = '(' then
      match inner rest with
      | .error fault => .error fault
      | .ok (e, rest) =>
        match skipBlanks rest with
        | ')' :: rest => .ok (e, rest)
        | _ => .error .parenExpected
    else if c = '"' || c = '\'' then stringTail c [] rest
    else if c.isDigit || c = '-' then number (c :: rest)
    else if isLetter c || c = '_' then word (c :: rest)
    else .error (.unexpected c)

/-! ## Levels -/

/-- What an operator at the front of a text builds from its operands, with the
text behind it. -/
abbrev Operator := List Char → Option ((Expr → Expr → Expr) × List Char)

/-- Reads operators with their right operands as long as there are any, grouping
to the left; `fuel` bounds their number. -/
def chainTail (operator : Operator) (next : Parser Expr) : (fuel : Nat) → Expr → Parser Expr
  | 0, left, cs => .ok (left, cs)
  | fuel + 1, left, cs =>
    match operator (skipBlanks cs) with
    | none => .ok (left, cs)
    | some (build, rest) =>
      match next rest with
      | .error fault => .error fault
      | .ok (right, rest) => chainTail operator next fuel (build left right) rest

/-- Reads one or more operands joined by operators, grouping to the left. -/
def chain (operator : Operator) (next : Parser Expr) : Parser Expr := fun cs =>
  match next cs with
  | .error fault => .error fault
  | .ok (left, rest) => chainTail operator next rest.length left rest

/-- The signs `+` and `-`. -/
def sumOperator : Operator
  | '+' :: rest => some (arith .add, rest)
  | '-' :: rest => some (arith .sub, rest)
  | _ => none

/-- The comparison signs; of two that fit, the longer one. -/
def comparisonOperator : Operator
  | '=' :: '=' :: rest => some (compare .equal, rest)
  | '!' :: '=' :: rest => some (compare .unequal, rest)
  | '>' :: '=' :: rest => some (compare .atLeast, rest)
  | '<' :: '=' :: rest => some (compare .atMost, rest)
  | '>' :: rest => some (compare .greater, rest)
  | '<' :: rest => some (compare .less, rest)
  | _ => none

/-- The sign `&&`. -/
def andOperator : Operator
  | '&' :: '&' :: rest => some (and, rest)
  | _ => none

/-- The sign `||`. -/
def orOperator : Operator
  | '|' :: '|' :: rest => some (or, rest)
  | _ => none

/-- Reads operands joined by `+` or `-`. -/
def sum (inner : Parser Expr) : Parser Expr := chain sumOperator (operand inner)

/-- Reads a sum, or two sums that are compared. -/
def comparison (inner : Parser Expr) : Parser Expr := fun cs =>
  match sum inner cs with
  | .error fault => .error fault
  | .ok (left, rest) =>
    match comparisonOperator (skipBlanks rest) with
    | none => .ok (left, rest)
    | some (build, rest) =>
      match sum inner rest with
      | .error fault => .error fault
      | .ok (right, rest) => .ok (build left right, rest)

/-- Reads a comparison with any number of `!` before it, at most `fuel`. -/
def negationTail (inner : Parser Expr) : (fuel : Nat) → Parser Expr
  | 0, cs => comparison inner cs
  | fuel + 1, cs =>
    match skipBlanks cs with
    | '!' :: '=' :: rest => comparison inner ('!' :: '=' :: rest)
    | '!' :: rest => (negationTail inner fuel rest).map fun (e, rest) => (not e, rest)
    | cs => comparison inner cs

/-- Reads a comparison with any number of `!` before it. -/
def negation (inner : Parser Expr) : Parser Expr := fun cs =>
  negationTail inner cs.length cs

/-- Reads negations joined by `&&`. -/
def conjunction (inner : Parser Expr) : Parser Expr := chain andOperator (negation inner)

/-- Reads conjunctions joined by `||`. -/
def disjunction (inner : Parser Expr) : Parser Expr := chain orOperator (conjunction inner)

/-- Reads an expression whose parentheses nest less than `depth` deep. -/
def nested : (depth : Nat) → Parser Expr
  | 0 => fun _ => .error .ends
  | depth + 1 => disjunction (nested depth)

/-! ## Whole texts -/

/-- The number of bytes of some characters. -/
def byteLength (cs : List Char) : Nat :=
  cs.foldl (fun n c => n + c.utf8Size) 0

/-- Reads a whole text.  Faults inside the expression are reported with the
trimmed text, an empty text and input behind the expression with the text as it
was given. -/
def parse (text : String) : Except ExpressionError Expr :=
  let cs := trimChars text.toList
  if cs.isEmpty then .error (.unreadable text .empty)
  else
    match nested (cs.length + 1) cs with
    | .error fault => .error (.unreadable (String.ofList cs) fault)
    | .ok (e, rest) =>
      match skipBlanks rest with
      | [] => .ok e
      | rest => .error (.unreadable text (.leftover (byteLength cs - byteLength rest)))

end Expr
end Statechart
