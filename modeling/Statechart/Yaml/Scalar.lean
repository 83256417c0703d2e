import Statechart.Value
import Statechart.Yaml.Node

/-!
# Values of YAML nodes

A quoted scalar is a text.  A plain one is `null`, a boolean or a number if it
is written like one, and a text otherwise.  Integers are written in decimal, or
after `0x`, `0o` or `0b`; digits behind a leading zero make a text.  An integer
that 64 bits cannot hold but 128 bits can is refused.  Other decimals are the
nearest float, and `.inf` and `.nan`, which no value can hold, become `null`.
-/

namespace Statechart
namespace Yaml

/-- The value of a digit in bases up to sixteen. -/
def digit? (base : Nat) (c : Char) : Option Nat :=
  (hexDigit? c).filter (· < base)

/-- The number with the given digits; there has to be one. -/
def digitsIn (base : Nat) (cs : List Char) : Option Nat :=
  if cs.isEmpty then none
  else cs.foldl (fun n c => do return (← n) * base + (← digit? base c)) (some 0)

/-- The characters behind a sign, if there is one. -/
def dropSign : List Char → List Char
  | '-' :: rest => rest
  | '+' :: rest => rest
  | cs => cs

/-- Holds of several digits with a zero in front, which make a text. -/
def isPadded (cs : List Char) : Bool :=
  match dropSign cs with
  | '0' :: d :: rest => (d :: rest).all Char.isDigit
  | _ => false

/-- The size of an integer without its sign, in any base. -/
def magnitude (cs : List Char) : Option Nat :=
  match cs with
  | '0' :: 'x' :: rest => digitsIn 16 rest
  | '0' :: 'o' :: rest => digitsIn 8 rest
  | '0' :: 'b' :: rest => digitsIn 2 rest
  | cs => if isPadded cs then none else digitsIn 10 cs

/-- The integer that a plain scalar is written like. -/
def integer? (cs : List Char) : Option Int :=
  match cs with
  | '-' :: rest => (magnitude rest).map fun n => -(n : Int)
  | '+' :: rest => (magnitude rest).map Int.ofNat
  | cs => (magnitude cs).map Int.ofNat

/-- An integer without sign below `2 ^ 64`, as a count is written. -/
def count? (cs : List Char) : Option Nat :=
  match cs with
  | '-' :: _ => none
  | '+' :: rest => (magnitude rest).filter (· < Value.endOfWord)
  | cs => (magnitude cs).filter (· < Value.endOfWord)

/-- Holds of integers of 64 bits, with sign or without. -/
def fits64 (n : Int) : Bool := Value.minInt ≤ n && n < Value.endOfWord

/-- Holds of integers of 128 bits, with sign or without: from `-2 ^ 127` on and
below `2 ^ 128`. -/
def fits128 (n : Int) : Bool :=
  -170141183460469231731687303715884105728 ≤ n && n < 340282366920938463463374607431768211456

/-- The value of an exponent behind its letter. -/
def exponent? (cs : List Char) : Option Int :=
  match cs with
  | '-' :: rest => (digitsIn 10 rest).map fun n => -(n : Int)
  | '+' :: rest => (digitsIn 10 rest).map Int.ofNat
  | cs => (digitsIn 10 cs).map Int.ofNat

/-- The float nearest to `digits * 10 ^ power`; beyond all floats there is an
answer too, zero or infinity. -/
def nearestFloat (digits : Nat) (power : Int) : Float :=
  let reach := power + (toString digits).length
  if digits = 0 || reach < -400 then 0.0
  else if reach > 400 then 1.0 / 0.0
  else if power < 0 then Float.ofScientific digits true power.natAbs
  else Float.ofScientific digits false power.toNat

/-- The size of a decimal without its sign. -/
def decimalSize (cs : List Char) : Option Float := do
  let whole := cs.takeWhile Char.isDigit
  let rest := cs.dropWhile Char.isDigit
  let (fraction, rest) := match rest with
    | '.' :: rest => (rest.takeWhile Char.isDigit, rest.dropWhile Char.isDigit)
    | rest => ([], rest)
  let digits ← digitsIn 10 (whole ++ fraction)
  let power ← match rest with
    | [] => some 0
    | c :: rest => if c == 'e' || c == 'E' then exponent? rest else none
  return nearestFloat digits (power - fraction.length)

/-- The finite float that a plain scalar is written like. -/
def decimal? (cs : List Char) : Option Float :=
  let x : Option Float := match cs with
    | '-' :: rest => (decimalSize rest).map fun x => -x
    | '+' :: rest => decimalSize rest
    | cs => decimalSize cs
  x.filter Float.isFinite

/-- Holds of the texts for infinities and for what is no number. -/
def isBeyondNumbers (text : String) : Bool :=
  [".inf", ".Inf", ".INF", "+.inf", "+.Inf", "+.INF", "-.inf", "-.Inf", "-.INF",
    ".nan", ".NaN", ".NAN"].contains text

/-- Holds of the plain scalars that mean `null`. -/
def isNull (text : String) : Bool :=
  ["", "~", "null", "Null", "NULL"].contains text

/-- The value of a plain scalar; `none` for an integer that is refused. -/
def plainValue (text : String) : Option Value :=
  let cs := text.toList
  if isNull text then some .null
  else if ["true", "True", "TRUE"].contains text then some (.bool true)
  else if ["false", "False", "FALSE"].contains text then some (.bool false)
  else
    match (integer? cs).filter fits128 with
    | some n => if fits64 n then some (.int n) else none
    | none =>
      if isPadded cs then some (.str text)
      else if isBeyondNumbers text then some .null
      else
        match decimal? cs with
        | some x => some (.float x)
        | none => some (.str text)

namespace Node

/-- The text of a scalar. -/
def text? : Node → Option String
  | scalar text _ => some text
  | _ => none

mutual

/-- The value of a node without faults whose keys are scalars. -/
def value? : Node → Option Value
  | scalar text isPlain => if isPlain then plainValue text else some (.str text)
  | sequence items => (values? items).map .arr
  | mapping pairs => (fields? [] pairs).map .obj
  | cut => none

/-- The values of nodes. -/
def values? : List Node → Option (List Value)
  | [] => some []
  | node :: rest => do
    let v ← node.value?
    return v :: (← values? rest)

/-- The fields of pairs; of two with one key the later counts. -/
def fields? (done : Fields Value) : List (Node × Node) → Option (Fields Value)
  | [] => some done
  | (k, v) :: rest => do
    let name ← k.text?
    let v ← v.value?
    fields? (Fields.put name v done) rest

end

end Node
end Yaml
end Statechart
