/-!
# The shortest decimal of a float

A positive finite float is `m * 2 ^ q`, and the real numbers that round to it
form an interval around it.  `shortest` picks a decimal of that interval with as
few digits as possible, and of those the nearest to the float.

The search is exact: on the grid of the multiples of `10 ^ k` only the two
neighbours of the float have to be tried, because the interval contains the
float, so if it meets the grid at all it contains one of them.  Seventeen digits
always suffice.
-/

namespace Statechart
namespace Decimal

/-- The number `digits * 10 ^ power`. -/
structure Scientific where
  digits : Nat
  power : Int
  deriving Repr, DecidableEq

/-- The number `significand * 2 ^ power`. -/
structure Binary where
  significand : Nat
  power : Int
  deriving Repr, DecidableEq

namespace Binary

/-- The value of the sign bit among the bits of a float, `2 ^ 63`. -/
def signBit : Nat := 9223372036854775808

/-- The value of the leading bit of a significand, `2 ^ 52`. -/
def leadingBit : Nat := 4503599627370496

/-- The size of the finite float with the given bits; the sign bit is not
looked at. -/
def ofBits (bits : Nat) : Binary :=
  let fraction : Nat := bits % leadingBit
  let exponent : Nat := bits / leadingBit % 2048
  if exponent = 0 then ⟨fraction, -1074⟩
  else ⟨fraction + leadingBit, (exponent : Int) - 1075⟩

/-- Four times the significand, so that the ends of the interval are whole. -/
def centre (b : Binary) : Nat := 4 * b.significand

/-- The lower end of the interval; below a power of two the floats lie closer. -/
def lower (b : Binary) : Nat :=
  if b.significand = leadingBit ∧ b.power > -1074 then b.centre - 1 else b.centre - 2

/-- The upper end of the interval. -/
def upper (b : Binary) : Nat := b.centre + 2

/-- The factor that takes quarters of the significand to the common scale of a
comparison with multiples of `10 ^ k`. -/
def binaryFactor (b : Binary) (k : Int) : Nat :=
  Nat.pow 2 (b.power - 2).toNat * Nat.pow 10 (-k).toNat

/-- The factor that takes multiples of `10 ^ k` to that scale. -/
def decimalFactor (b : Binary) (k : Int) : Nat :=
  Nat.pow 2 (2 - b.power).toNat * Nat.pow 10 k.toNat

/-- Holds if `d * 10 ^ k` rounds to the float: the ends of the interval count
exactly if the significand is even. -/
def rounds (b : Binary) (k : Int) (d : Nat) : Bool :=
  let low := b.lower * b.binaryFactor k
  let high := b.upper * b.binaryFactor k
  let point := d * b.decimalFactor k
  if b.significand % 2 = 0 then low ≤ point && point ≤ high
  else low < point && point < high

/-- The nearest multiple of `10 ^ k` that rounds to the float, if there is one;
of two at one distance the even one. -/
def onGrid (b : Binary) (k : Int) : Option Nat :=
  let here := b.centre * b.binaryFactor k
  let unit := b.decimalFactor k
  let below := here / unit
  let above := below + 1
  match b.rounds k below, b.rounds k above with
  | true, true =>
    let down := here - below * unit
    let up := above * unit - here
    if down < up then some below
    else if up < down then some above
    else if below % 2 = 0 then some below else some above
  | true, false => some below
  | false, true => some above
  | false, false => none

/-- Holds if the float is at least `10 ^ e`. -/
def reaches (b : Binary) (e : Int) : Bool :=
  b.decimalFactor e ≤ b.centre * b.binaryFactor e

/-- The decimal exponent of the first digit of a positive float.  The estimate
from the length of the significand is off by at most one. -/
def leadingPower (b : Binary) : Int :=
  let estimate := ((b.significand.log2 : Int) + b.power) * 30103 / 100000
  if b.reaches (estimate + 1) then estimate + 1
  else if b.reaches estimate then estimate
  else estimate - 1

/-- The decimal with the fewest digits that rounds to the float. -/
def shortest (b : Binary) : Scientific :=
  let lead := b.leadingPower
  let hit := (List.range 17).findSome? fun (n : Nat) =>
    (b.onGrid (lead - n)).map (Scientific.mk · (lead - n))
  hit.getD ⟨0, 0⟩

end Binary

namespace Scientific

/-- Strips a factor ten from the digits, at most `n` times. -/
def stripZeros : Nat → Scientific → Scientific
  | 0, s => s
  | n + 1, s =>
    if s.digits ≠ 0 ∧ s.digits % 10 = 0 then stripZeros n ⟨s.digits / 10, s.power + 1⟩
    else s

/-- The same number with no zero at the end of its digits, for numbers of up to
twenty digits. -/
def normal (s : Scientific) : Scientific := stripZeros 20 s

end Scientific

end Decimal
end Statechart
