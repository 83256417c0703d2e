import Statechart.Value

/-!
# Reading JSON

A reader takes the characters that are left and answers a result with the rest,
or a fault.  A fault names its problem and the place where it was noticed, so
that its message can give a line and a column, both counted from one and the
column in bytes.

Arrays and objects nest at most 127 deep.  A number without point and exponent
that fits 64 bits, with or without sign, is an integer; any other number is the
float that its first significant digits, as many as fit 64 bits without sign,
give when scaled by one power of ten.  `-0` is the float `-0.0`, and a number
beyond the floats is a fault.

A reader has a `Rigour`.  Text that is skipped over is read with less of it:
nesting is not bounded, numbers may be out of range and escaped surrogates need
not form pairs.
-/

namespace Statechart
namespace Json

/-- What can be wrong with a JSON text. -/
inductive Problem where
  | listEnds
  | objectEnds
  | stringEnds
  | valueEnds
  | colonExpected
  | listSeparatorExpected
  | objectSeparatorExpected
  | literalExpected
  | valueExpected
  | badEscape
  | badNumber
  | outOfRange
  | controlCharacter
  | keyNotString
  | loneSurrogate
  | trailingComma
  | trailingText
  | halfPair
  | tooDeep
  deriving Repr, DecidableEq

/-- A problem with the place where it was noticed: `ahead` bytes behind the
point at which `rest` was left. -/
structure Fault where
  problem : Problem
  rest : List Char
  ahead : Nat
  deriving Repr, DecidableEq

/-- The words for a problem. -/
def Problem.message : Problem → String
  | listEnds => "EOF while parsing a list"
  | objectEnds => "EOF while parsing an object"
  | stringEnds => "EOF while parsing a string"
  | valueEnds => "EOF while parsing a value"
  | colonExpected => "expected `:`"
  | listSeparatorExpected => "expected `,` or `]`"
  | objectSeparatorExpected => "expected `,` or `\x7d`"
  | literalExpected => "expected ident"
  | valueExpected => "expected value"
  | badEscape => "invalid escape"
  | badNumber => "invalid number"
  | outOfRange => "number out of range"
  | controlCharacter => "control character (\\u0000-\\u001F) found while parsing a string"
  | keyNotString => "key must be a string"
  | loneSurrogate => "lone leading surrogate in hex escape"
  | trailingComma => "trailing comma"
  | trailingText => "trailing characters"
  | halfPair => "unexpected end of hex escape"
  | tooDeep => "recursion limit exceeded"

/-- The number of bytes of some characters. -/
def byteCount (cs : List Char) : Nat :=
  cs.foldl (fun n c => n + c.utf8Size) 0

/-- The line and the column that `bytes` bytes of the text lead to, from the
given ones. -/
def placeFrom (line column : Nat) : List Char → Nat → Nat × Nat
  | [], _ => (line, column)
  | c :: rest, bytes =>
    if bytes = 0 then (line, column)
    else if c = '\n' then placeFrom (line + 1) 0 rest (bytes - 1)
    else placeFrom line (column + min bytes c.utf8Size) rest (bytes - c.utf8Size)

/-- The message of a fault found in a text, with its place. -/
def Fault.message (fault : Fault) (text : String) : String :=
  let cs := text.toList
  let offset := byteCount cs - byteCount fault.rest + min fault.ahead (byteCount fault.rest)
  let (line, column) := placeFrom 1 0 cs offset
  fault.problem.message ++ " at line " ++ toString line ++ " column " ++ toString column

/-- A reader whose faults may be of another type. -/
abbrev ReaderOf (ε α : Type) := List Char → Except ε (α × List Char)

/-- A reader takes the characters that are left and answers a result with the
rest. -/
abbrev Reader (α : Type) := ReaderOf Fault α

/-- The fault at the next character. -/
def Problem.here (problem : Problem) (rest : List Char) : Fault := ⟨problem, rest, 1⟩

/-- The fault behind the characters that were read. -/
def Problem.behind (problem : Problem) (rest : List Char) : Fault := ⟨problem, rest, 0⟩

/-- How strictly a text is read. -/
structure Rigour where
  /-- Numbers must be within the range of floats. -/
  range : Bool
  /-- Escaped surrogates must form pairs. -/
  pairs : Bool

/-- The rigour for text whose value is wanted. -/
def Rigour.full : Rigour := ⟨true, true⟩

/-- The rigour for text that is skipped over. -/
def Rigour.skip : Rigour := ⟨false, false⟩

/-- The characters that may stand between tokens. -/
def isSpace (c : Char) : Bool :=
  c == ' ' || c == '\n' || c == '\t' || c == '\r'

/-- Drops the space in front. -/
def skipSpace (cs : List Char) : List Char := cs.dropWhile isSpace

/-! ## Words and strings -/

/-- Reads the given characters of a literal. -/
def word : List Char → Reader Unit
  | [], cs => .ok ((), cs)
  | _ :: _, [] => .error (Problem.valueEnds.behind [])
  | expected :: more, c :: rest =>
    if c = expected then word more rest else .error (Problem.literalExpected.here (c :: rest))

/-- The value of a hexadecimal digit. -/
def hexValue? (c : Char) : Option Nat :=
  if '0' ≤ c && c ≤ '9' then some (c.toNat - '0'.toNat)
  else if 'a' ≤ c && c ≤ 'f' then some (c.toNat - 'a'.toNat + 10)
  else if 'A' ≤ c && c ≤ 'F' then some (c.toNat - 'A'.toNat + 10)
  else none

/-- Reads four hexadecimal digits.  Four bytes have to be left, and they are
passed over even if they are no digits. -/
def fourHex (cs : List Char) : Except Fault (Nat × List Char) :=
  if byteCount (cs.take 4) < 4 then .error ⟨.stringEnds, cs, 4⟩
  else
    match cs with
    | a :: b :: c :: d :: rest =>
      match hexValue? a, hexValue? b, hexValue? c, hexValue? d with
      | some a, some b, some c, some d => .ok (((a * 16 + b) * 16 + c) * 16 + d, rest)
      | _, _, _, _ => .error ⟨.badEscape, cs, 4⟩
    | _ => .error ⟨.badEscape, cs, 4⟩

/-- Holds of the first half of a surrogate pair. -/
def isHighSurrogate (n : Nat) : Bool := 0xD800 ≤ n && n ≤ 0xDBFF

/-- Holds of the second half of a surrogate pair. -/
def isLowSurrogate (n : Nat) : Bool := 0xDC00 ≤ n && n ≤ 0xDFFF

/-- Reads what follows the first half of a surrogate pair. -/
def lowSurrogate (high : Nat) : Reader Char
  | [] => .error (Problem.stringEnds.behind [])
  | '\\' :: rest =>
    match rest with
    | [] => .error (Problem.stringEnds.behind [])
    | 'u' :: rest =>
      match fourHex rest with
      | .error fault => .error fault
      | .ok (low, rest) =>
        if isLowSurrogate low then
          .ok (Char.ofNat (0x10000 + (high - 0xD800) * 0x400 + (low - 0xDC00)), rest)
        else .error (Problem.loneSurrogate.behind rest)
    | _ :: _ => .error ⟨.halfPair, rest, 1⟩
  | rest@(_ :: _) => .error ⟨.halfPair, rest, 1⟩

/-- Reads an escape behind its backslash. -/
def escaped (rigour : Rigour) : Reader Char
  | [] => .error (Problem.stringEnds.behind [])
  | c :: rest =>
    match c with
    | '"' => .ok ('"', rest)
    | '\\' => .ok ('\\', rest)
    | '/' => .ok ('/', rest)
    | 'b' => .ok ('\x08', rest)
    | 'f' => .ok ('\x0c', rest)
    | 'n' => .ok ('\n', rest)
    | 'r' => .ok ('\r', rest)
    | 't' => .ok ('\t', rest)
    | 'u' =>
      match fourHex rest with
      | .error fault => .error fault
      | .ok (n, rest) =>
        if !rigour.pairs then .ok (Char.ofNat n, rest)
        else if isLowSurrogate n then .error (Problem.loneSurrogate.behind rest)
        else if isHighSurrogate n then lowSurrogate n rest
        else .ok (Char.ofNat n, rest)
    | _ => .error (Problem.badEscape.here (c :: rest))

/-- Reads a string behind its first quote.  `fuel` bounds the number of
characters and escapes. -/
def stringTail (rigour : Rigour) : (fuel : Nat) → (done : List Char) → Reader String
  | 0, _, cs => .error (Problem.stringEnds.behind cs)
  | _ + 1, _, [] => .error (Problem.stringEnds.behind [])
  | fuel + 1, done, c :: rest =>
    if c = '"' then .ok (String.ofList done.reverse, rest)
    else if c = '\\' then
      match escaped rigour rest with
      | .error fault => .error fault
      | .ok (c, rest) => stringTail rigour fuel (c :: done) rest
    else if c.toNat < 0x20 then .error (Problem.controlCharacter.behind rest)
    else stringTail rigour fuel (c :: done) rest

/-- Reads a string behind its first quote. -/
def string (rigour : Rigour) : Reader String := fun cs =>
  stringTail rigour (cs.length + 1) [] cs

/-! ## Numbers -/

/-- Adds decimal digits to a number as long as it stays below `2 ^ 64`, and
counts those that were added. -/
def addDigits (significand count : Nat) : List Char → Nat × Nat
  | [] => (significand, count)
  | c :: rest =>
    let next := significand * 10 + (c.toNat - '0'.toNat)
    if next < Value.endOfWord then addDigits next (count + 1) rest else (significand, count)

/-- A power of ten as a float. -/
def powerOfTen (n : Nat) : Float := Float.ofScientific 1 false n

/-- Divides a float by `10 ^ n`, by at most `10 ^ 308` at a time. -/
def divideByPower (x : Float) (n : Nat) : Float :=
  if n ≤ 308 then x / powerOfTen n
  else if x == 0 then x
  else divideByPower (x / powerOfTen 308) (n - 308)
termination_by n

/-- Scales a float by a power of ten, unless the result is out of range. -/
def scale? (x : Float) (power : Int) : Option Float :=
  if power < 0 then some (divideByPower x power.natAbs)
  else if power ≤ 308 then
    let y := x * powerOfTen power.toNat
    if y.isInf then none else some y
  else if x == 0 then some x
  else none

/-- The number with the given digits before and behind the point and the given
exponent; `isWhole` holds if there is neither point nor exponent. -/
def number? (negative isWhole : Bool) (whole fraction : List Char) (exponent : Int) :
    Option Value :=
  let (s, usedWhole) := addDigits 0 0 whole
  let (s, usedFraction) :=
    if fraction.isEmpty then (s, 0) else addDigits s 0 fraction
  let dropped := whole.length - usedWhole
  if isWhole && dropped = 0 && !negative then some (.int s)
  else if isWhole && dropped = 0 && 0 < s && Value.minInt ≤ -(s : Int) then
    some (.int (-(s : Int)))
  else
    (scale? s.toUInt64.toFloat ((dropped : Int) - usedFraction + exponent)).map fun x =>
      .float (if negative then -x else x)

/-- The digits in front of a text and the rest. -/
def digits (cs : List Char) : List Char × List Char :=
  (cs.takeWhile Char.isDigit, cs.dropWhile Char.isDigit)

/-- The digits before the point: one zero, or digits with no zero in front. -/
def wholeDigits : Reader (List Char)
  | [] => .error (Problem.valueEnds.behind [])
  | c :: rest =>
    if c = '0' then
      match rest with
      | d :: _ => if d.isDigit then .error (Problem.badNumber.here rest) else .ok ([c], rest)
      | [] => .ok ([c], rest)
    else if c.isDigit then
      let (more, rest) := digits rest
      .ok (c :: more, rest)
    else .error (Problem.badNumber.here (c :: rest))

/-- The point and the digits behind it, if there is a point. -/
def fractionDigits : Reader (Option (List Char))
  | '.' :: rest =>
    match digits rest with
    | ([], []) => .error (Problem.valueEnds.here [])
    | ([], rest) => .error (Problem.badNumber.here rest)
    | (ds, rest) => .ok (some ds, rest)
  | cs => .ok (none, cs)

/-- An exponent with its sign. -/
structure Exponent where
  negative : Bool
  /-- The digits and what follows them. -/
  digits : List Char
  /-- The text from the first digit on. -/
  start : List Char

/-- The exponent, if there is one. -/
def exponent : Reader (Option Exponent) := fun cs =>
  match cs with
  | c :: rest =>
    if c = 'e' || c = 'E' then
      let (negative, rest) := match rest with
        | '+' :: rest => (false, rest)
        | '-' :: rest => (true, rest)
        | rest => (false, rest)
      match rest with
      | [] => .error (Problem.valueEnds.behind [])
      | d :: _ =>
        if d.isDigit then
          let (ds, behind) := digits rest
          .ok (some ⟨negative, ds, rest⟩, behind)
        else .error (Problem.badNumber.here rest)
    else .ok (none, cs)
  | [] => .ok (none, [])

/-- The first exponent that is too large, `2 ^ 31`. -/
def endOfExponents : Nat := 2147483648

/-- The value of decimal digits as long as it is no exponent that is too large,
and the number of digits up to and with the first one that does not fit, if
there is such a digit. -/
def exponentSize (size count : Nat) : List Char → Nat × Option Nat
  | [] => (size, none)
  | c :: rest =>
    let next := size * 10 + (c.toNat - '0'.toNat)
    if next < endOfExponents then exponentSize next (count + 1) rest else (size, some (count + 1))

/-- Reads a number behind its sign. -/
def number (rigour : Rigour) (negative : Bool) : Reader Value := fun cs =>
  match wholeDigits cs with
  | .error fault => .error fault
  | .ok (whole, rest) =>
    match fractionDigits rest with
    | .error fault => .error fault
    | .ok (fraction, rest) =>
      match exponent rest with
      | .error fault => .error fault
      | .ok (exponent, rest) =>
        let isWhole := fraction.isNone && exponent.isNone
        let (size, overflow) := match exponent with
          | none => (0, none)
          | some e => exponentSize 0 0 e.digits
        let exponentNegative := exponent.any (·.negative)
        let isZero := (whole ++ fraction.getD []).all (· == '0')
        if !rigour.range then .ok (.null, rest)
        else
          match exponent, overflow with
          | some e, some count =>
            if isZero || exponentNegative then .ok (.float (if negative then -0.0 else 0.0), rest)
            else .error (Problem.outOfRange.behind (e.start.drop count))
          | _, _ =>
            let signed : Int := if exponentNegative then -(size : Int) else size
            match number? negative isWhole whole (fraction.getD []) signed with
            | some v => .ok (v, rest)
            | none => .error (Problem.outOfRange.behind rest)

/-! ## Arrays and objects -/

/-- Reads what stands before the next item of an array, or the closing bracket;
`first` holds if no item was read. -/
def itemOrEnd (first : Bool) : Reader Bool := fun cs =>
  match skipSpace cs with
  | [] => .error (Problem.listEnds.here [])
  | ']' :: rest => .ok (false, rest)
  | c :: rest =>
    if first then .ok (true, c :: rest)
    else if c = ',' then
      match skipSpace rest with
      | [] => .error (Problem.valueEnds.here [])
      | ']' :: rest => .error (Problem.trailingComma.here (']' :: rest))
      | rest => .ok (true, rest)
    else .error (Problem.listSeparatorExpected.here (c :: rest))

/-- Reads the items of an array up to the closing bracket.  `fuel` bounds their
number. -/
def itemsTail {ε α : Type} (wrap : Fault → ε) (item : ReaderOf ε α) :
    (fuel : Nat) → (first : Bool) → List α → ReaderOf ε (List α)
  | 0, _, _, cs => .error (wrap (Problem.listEnds.here cs))
  | fuel + 1, first, done, cs =>
    match itemOrEnd first cs with
    | .error fault => .error (wrap fault)
    | .ok (false, rest) => .ok (done.reverse, rest)
    | .ok (true, rest) =>
      match item rest with
      | .error fault => .error fault
      | .ok (v, rest) => itemsTail wrap item fuel false (v :: done) rest

/-- Reads an array behind its opening bracket. -/
def items {ε α : Type} (wrap : Fault → ε) (item : ReaderOf ε α) : ReaderOf ε (List α) :=
  fun cs => itemsTail wrap item (cs.length + 1) true [] cs

/-- Reads the colon between a key and its value. -/
def colon : Reader Unit := fun cs =>
  match skipSpace cs with
  | ':' :: rest => .ok ((), rest)
  | [] => .error (Problem.objectEnds.here [])
  | cs => .error (Problem.colonExpected.here cs)

/-- Reads the quote of the next key, or the closing brace, from the space before
it on. -/
def keyOrEnd (first : Bool) : Reader Bool := fun cs =>
  match skipSpace cs with
  | [] => .error (Problem.objectEnds.here [])
  | '\x7d' :: rest => .ok (false, rest)
  | c :: rest =>
    if first then
      if c = '"' then .ok (true, rest) else .error (Problem.keyNotString.here (c :: rest))
    else if c = ',' then
      match skipSpace rest with
      | '"' :: rest => .ok (true, rest)
      | '\x7d' :: rest => .error (Problem.trailingComma.here ('\x7d' :: rest))
      | [] => .error (Problem.valueEnds.here [])
      | cs => .error (Problem.keyNotString.here cs)
    else .error (Problem.objectSeparatorExpected.here (c :: rest))

/-- Reads the fields of an object; `field` is given what was collected and the
key, and reads the value behind the colon.  `fuel` bounds the number of
fields. -/
def fieldsTail {ε σ : Type} (wrap : Fault → ε) (rigour : Rigour)
    (field : σ → String → ReaderOf ε σ) :
    (fuel : Nat) → (first : Bool) → σ → ReaderOf ε σ
  | 0, _, _, cs => .error (wrap (Problem.objectEnds.here cs))
  | fuel + 1, first, done, cs =>
    match keyOrEnd first cs with
    | .error fault => .error (wrap fault)
    | .ok (false, rest) => .ok (done, rest)
    | .ok (true, rest) =>
      match string rigour rest with
      | .error fault => .error (wrap fault)
      | .ok (key, rest) =>
        match field done key rest with
        | .error fault => .error fault
        | .ok (done, rest) => fieldsTail wrap rigour field fuel false done rest

/-- Reads an object behind its opening brace. -/
def fields {ε σ : Type} (wrap : Fault → ε) (rigour : Rigour)
    (field : σ → String → ReaderOf ε σ) (start : σ) : ReaderOf ε σ := fun cs =>
  fieldsTail wrap rigour field (cs.length + 1) true start cs

/-- Reads a field of a value: of two with one key the later one counts. -/
def valueField (value : Reader Value) (done : Fields Value) (key : String) :
    Reader (Fields Value) := fun cs =>
  match colon cs with
  | .error fault => .error fault
  | .ok ((), rest) =>
    match value rest with
    | .error fault => .error fault
    | .ok (v, rest) => .ok (Fields.put key v done, rest)

/-- Reads a value in which arrays and objects nest at most `depth` deep. -/
def value (rigour : Rigour) : (depth : Nat) → Reader Value
  | depth, cs =>
    match skipSpace cs with
    | [] => .error (Problem.valueEnds.here [])
    | c :: rest =>
      if c = '"' then (string rigour rest).map fun (s, rest) => (.str s, rest)
      else if c = '-' then number rigour true rest
      else if c.isDigit then number rigour false (c :: rest)
      else if c = 'n' then (word "ull".toList rest).map fun (_, rest) => (.null, rest)
      else if c = 't' then (word "rue".toList rest).map fun (_, rest) => (.bool true, rest)
      else if c = 'f' then (word "alse".toList rest).map fun (_, rest) => (.bool false, rest)
      else if c = '[' then
        match depth with
        | 0 => .error (Problem.tooDeep.here (c :: rest))
        | depth + 1 =>
          (items id (value rigour depth) rest).map fun (vs, rest) => (.arr vs, rest)
      else if c = '\x7b' then
        match depth with
        | 0 => .error (Problem.tooDeep.here (c :: rest))
        | depth + 1 =>
          (fields id rigour (valueField (value rigour depth)) [] rest).map fun (fs, rest) =>
            (.obj fs, rest)
      else .error (Problem.valueExpected.here (c :: rest))

/-- The deepest nesting of arrays and objects in a text. -/
def maxDepth : Nat := 127

/-- Reads a value whose content is not wanted. -/
def skipValue : Reader Unit := fun cs =>
  (value Rigour.skip cs.length cs).map fun (_, rest) => ((), rest)

/-- Accepts the end of a text, with space before it. -/
def atEnd {α : Type} (result : α × List Char) : Except Fault α :=
  match skipSpace result.2 with
  | [] => .ok result.1
  | rest => .error (Problem.trailingText.here rest)

/-- Reads a text that holds one value. -/
def read (text : String) : Except Fault Value :=
  value Rigour.full maxDepth text.toList >>= atEnd

end Json
end Statechart
