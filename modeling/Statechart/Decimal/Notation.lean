import Statechart.Decimal.Shortest

/-!
# How floats are written

A float is written with its shortest digits.  If the first digit stands for
`10 ^ e` with `-5 ≤ e < 16`, the notation is positional and always has a
fraction (`100000.0`, `0.00001`); otherwise it is `d.ddde+N` or `d.ddde-N`, with
no point if there is one digit (`1e+16`, `5e-324`).
-/

namespace Statechart
namespace Decimal

/-- The least decimal exponent of the first digit in positional notation. -/
def leastPositional : Int := -5

/-- The first decimal exponent beyond positional notation. -/
def endPositional : Int := 16

/-- A text of `n` zeros. -/
def zeros (n : Nat) : String := String.ofList (List.replicate n '0')

/-- Digits with the point behind the first `e + 1` of them, for `0 ≤ e`. -/
def pointAfter (digits : List Char) (e : Nat) : String :=
  if digits.length ≤ e + 1 then
    String.ofList digits ++ zeros (e + 1 - digits.length) ++ ".0"
  else
    String.ofList (digits.take (e + 1)) ++ "." ++ String.ofList (digits.drop (e + 1))

/-- Scientific notation of digits whose first one stands for `10 ^ e`. -/
def scientific (digits : List Char) (e : Int) : String :=
  let fraction := match digits.drop 1 with
    | [] => ""
    | rest => "." ++ String.ofList rest
  let exponent := if e < 0 then "e-" ++ toString e.natAbs else "e+" ++ toString e.natAbs
  String.ofList (digits.take 1) ++ fraction ++ exponent

/-- The text of a positive decimal. -/
def Scientific.text (s : Scientific) : String :=
  let s := s.normal
  let digits := (toString s.digits).toList
  let e := s.power + digits.length - 1
  if leastPositional ≤ e && e < endPositional then
    if e < 0 then "0." ++ zeros (e.natAbs - 1) ++ String.ofList digits
    else pointAfter digits e.toNat
  else scientific digits e

/-- The text of a finite float. -/
def floatText (x : Float) : String :=
  let bits := x.toBits.toNat
  let sign := if Binary.signBit ≤ bits then "-" else ""
  let size := Binary.ofBits bits
  if size.significand = 0 then sign ++ "0.0" else sign ++ size.shortest.text

end Decimal
end Statechart
