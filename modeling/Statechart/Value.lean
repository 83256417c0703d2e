import Statechart.Fields

/-!
# Values

The values of variables, event payloads and attributes: those that JSON can
write.  A number is an integer or a binary64 float, and the two are told apart:
`1` and `1.0` are different values.  The fields of an object are kept in
increasing order of their names.
-/

namespace Statechart

/-- A value that JSON can write. -/
inductive Value where
  | null
  | bool (b : Bool)
  | int (n : Int)
  | float (x : Float)
  | str (s : String)
  | arr (items : List Value)
  | obj (fields : List (String × Value))
  deriving Inhabited

namespace Value

mutual

/-- Sameness of values.  Floats are compared as numbers, so `0.0` is `-0.0`, and
an integer is never a float. -/
def same : Value → Value → Bool
  | null, null => true
  | bool a, bool b => a == b
  | int a, int b => a == b
  | float a, float b => a == b
  | str a, str b => a == b
  | arr xs, arr ys => sameItems xs ys
  | obj xs, obj ys => sameFields xs ys
  | _, _ => false

/-- Sameness of arrays, item by item. -/
def sameItems : List Value → List Value → Bool
  | [], [] => true
  | x :: xs, y :: ys => same x y && sameItems xs ys
  | _, _ => false

/-- Sameness of objects, field by field. -/
def sameFields : List (String × Value) → List (String × Value) → Bool
  | [], [] => true
  | (key, x) :: xs, (other, y) :: ys => key == other && same x y && sameFields xs ys
  | _, _ => false

end

/-- The object with the given fields; of two with one name the later counts. -/
def ofFields (pairs : List (String × Value)) : Value :=
  obj (Fields.ofList pairs)

/-- The text of a value that is a string. -/
def text? : Value → Option String
  | str s => some s
  | _ => none

/-- The member `name` of a value; a value that is no object has no members, and
an absent member is `null`. -/
def member (name : String) : Value → Value
  | obj fields => (Fields.get? name fields).getD null
  | _ => null

/-- The least integer of 64 bits, `-2 ^ 63`. -/
def minInt : Int := -9223372036854775808

/-- The greatest integer of 64 bits, `2 ^ 63 - 1`. -/
def maxInt : Int := 9223372036854775807

/-- The first natural number that 64 bits cannot hold, `2 ^ 64`. -/
def endOfWord : Nat := 18446744073709551616

/-- Holds of an integer that 64 bits with sign can hold. -/
def fitsInt (n : Int) : Bool :=
  minInt ≤ n && n ≤ maxInt

/-- The integer of a value that is one of 64 bits with sign. -/
def int? : Value → Option Int
  | int n => if fitsInt n then some n else none
  | _ => none

/-- The float nearest to an integer below `2 ^ 64` in size, ties to even. -/
def floatOfInt (n : Int) : Float :=
  let size := n.natAbs.toUInt64.toFloat
  if n < 0 then -size else size

/-- The number of a value as a float. -/
def float? : Value → Option Float
  | int n => some (floatOfInt n)
  | float x => some x
  | _ => none

@[simp] theorem member_obj (name : String) (fields : List (String × Value)) :
    member name (obj fields) = (Fields.get? name fields).getD null := rfl

theorem int?_eq_some_iff {v : Value} {n : Int} :
    v.int? = some n ↔ v = int n ∧ fitsInt n = true := by
  cases v with
  | int m =>
    by_cases h : fitsInt m
    · simp only [int?, h, if_true, Option.some.injEq, int.injEq]
      constructor
      · rintro rfl; exact ⟨rfl, h⟩
      · rintro ⟨rfl, _⟩; rfl
    · simp only [int?, h, int.injEq]
      constructor
      · simp
      · rintro ⟨rfl, hm⟩; exact absurd hm h
  | _ => simp [int?]

end Value
end Statechart
