import Statechart.DataModel
import Statechart.Expr.Parser
import Statechart.Json.Printer

/-!
# Evaluating expressions

Operands are evaluated from left to right, and `&&` and `||` leave their right
operand alone when the left one decides.  Logic answers booleans only.

Two numbers are equal if they differ by less than `2 ^ -52` as floats; other
values are equal if they are the same.  Order is defined on numbers, as floats,
and is false otherwise.  Sums and differences of integers are exact as long as
64 bits hold the result; any other arithmetic is done on floats, except that
`+` joins two strings.
-/

namespace Statechart

/-- Holds of the values that count as true in a condition: true itself, numbers
other than zero, and texts, arrays and objects that are not empty. -/
def Value.isTruthy : Value → Bool
  | null => false
  | bool b => b
  | int n => n != 0
  | float x => x != 0
  | str s => s != ""
  | arr items => !items.isEmpty
  | obj fields => !fields.isEmpty

namespace Expr

/-- The distance from which on two numbers differ, `2 ^ -52`. -/
def tolerance : Float := 1.0 / 4503599627370496.0

/-- Equality as `==` sees it. -/
def looselyEqual (a b : Value) : Bool :=
  match a.float?, b.float? with
  | some x, some y => (x - y).abs < tolerance
  | _, _ => a.same b

/-- Compares two values as floats; values that are no numbers do not compare. -/
def ordered (test : Float → Float → Bool) (a b : Value) : Bool :=
  match a.float?, b.float? with
  | some x, some y => test x y
  | _, _ => false

/-- The answer of a comparison. -/
def compareValues (op : Comparison) (a b : Value) : Bool :=
  match op with
  | .equal => looselyEqual a b
  | .unequal => !looselyEqual a b
  | .greater => ordered (fun x y => x > y) a b
  | .atLeast => ordered (fun x y => x ≥ y) a b
  | .less => ordered (fun x y => x < y) a b
  | .atMost => ordered (fun x y => x ≤ y) a b

/-- The exact result on integers. -/
def Arithmetic.onInts (op : Arithmetic) (a b : Int) : Int :=
  match op with
  | .add => a + b
  | .sub => a - b

/-- The result on floats. -/
def Arithmetic.onFloats (op : Arithmetic) (x y : Float) : Float :=
  match op with
  | .add => x + y
  | .sub => x - y

/-- An operation on two values, as a type error shows it. -/
def operationText (op : Arithmetic) (a b : Value) : String :=
  a.compact ++ " " ++ op.sign ++ " " ++ b.compact

/-- Arithmetic on floats; the result has to be finite. -/
def floatArithmetic (op : Arithmetic) (a b : Value) : Except ExpressionError Value :=
  match a.float?, b.float? with
  | some x, some y =>
    let z := Arithmetic.onFloats op x y
    if z.isFinite then .ok (.float z)
    else .error (.illTyped (operationText op a b) "result is not a finite number")
  | _, _ => .error (.illTyped (operationText op a b) "operands must both be numbers")

/-- Arithmetic on numbers: exact if the operands and the result are integers of
64 bits, and on floats otherwise. -/
def numberArithmetic (op : Arithmetic) (a b : Value) : Except ExpressionError Value :=
  match a.int?, b.int? with
  | some m, some n =>
    let result := Arithmetic.onInts op m n
    if Value.fitsInt result then .ok (.int result) else floatArithmetic op a b
  | _, _ => floatArithmetic op a b

/-- The answer of an arithmetic operation. -/
def arithmetic (op : Arithmetic) (a b : Value) : Except ExpressionError Value :=
  match op, a, b with
  | .add, .str s, .str t => .ok (.str (s ++ t))
  | _, _, _ => numberArithmetic op a b

/-- The value of an expression. -/
def eval (data : DataModel) : Expr → Except ExpressionError Value
  | literal v => .ok v
  | path name => data.lookup name
  | not inner => do
    let v ← inner.eval data
    return .bool !v.isTruthy
  | and left right => do
    let a ← left.eval data
    if a.isTruthy then
      let b ← right.eval data
      return .bool b.isTruthy
    else return .bool false
  | or left right => do
    let a ← left.eval data
    if a.isTruthy then return .bool true
    else
      let b ← right.eval data
      return .bool b.isTruthy
  | compare op left right => do
    let a ← left.eval data
    let b ← right.eval data
    return .bool (compareValues op a b)
  | arith op left right => do
    let a ← left.eval data
    let b ← right.eval data
    arithmetic op a b

end Expr

/-- An evaluator gives the value of an expression text on a data model, and the
answer of a condition. -/
structure Evaluator where
  value : String → DataModel → Except ExpressionError Value
  holds : String → DataModel → Except ExpressionError Bool

namespace Evaluator

instance : CoeFun Evaluator fun _ => String → DataModel → Except ExpressionError Value :=
  ⟨value⟩

/-- The evaluator whose conditions hold if their values are truthy.  A host may
supply an evaluator that decides conditions in another way. -/
def ofValue (value : String → DataModel → Except ExpressionError Value) : Evaluator where
  value := value
  holds text data := (value text data).map Value.isTruthy

/-- The evaluator for the expressions of this library. -/
def standard : Evaluator :=
  ofValue fun text data =>
    match Expr.parse text with
    | .error e => .error e
    | .ok e => e.eval data

theorem standard_eq (text : String) (data : DataModel) :
    standard text data =
      match Expr.parse text with
      | .error e => .error e
      | .ok e => e.eval data := rfl

/-- An evaluator for texts with holes only: `$path` is the value at a path, the
text `fail` fails, and any other text is its own value. -/
def echo : Evaluator :=
  ofValue fun text data =>
    if text = "fail" then .error (.illTyped text "asked to")
    else
      match text.toList with
      | '$' :: path => data.lookup (String.ofList path)
      | _ => .ok (.str text)

end Evaluator
end Statechart
