import Statechart.Proofs.DataModel.Paths
import Statechart.Proofs.Expr.Following
import Statechart.Proofs.Outcome

/-!
# The variables that an expression mentions

An expression mentions the variables that its paths begin with.  Evaluating it fails with an
undefined variable only if it mentions that variable and the data model does not declare it.
Because `&&` and `||` may leave their right operands alone, the converse does not hold: an
expression that mentions an undeclared variable may have a value.
-/

namespace Statechart
namespace Expr

/-- The variables that the paths of an expression begin with, from left to right. -/
def leadingNames : Expr → List String
  | literal _ => []
  | path name => [(DataModel.splitPath name).1]
  | not inner => inner.leadingNames
  | and left right => left.leadingNames ++ right.leadingNames
  | or left right => left.leadingNames ++ right.leadingNames
  | compare _ left right => left.leadingNames ++ right.leadingNames
  | arith _ left right => left.leadingNames ++ right.leadingNames

/-- The text is an expression that mentions the variable. -/
def Mentions (text name : String) : Prop :=
  ∃ e, parse text = .ok e ∧ name ∈ e.leadingNames

variable {data : DataModel} {e : Expr} {text name : String}

/-! ## Evaluating -/

theorem floatArithmetic_ne_undefined (op : Arithmetic) (a b : Value) :
    floatArithmetic op a b ≠ .error (.undefined name) := by
  unfold floatArithmetic
  split
  · dsimp only
    split <;> simp
  · simp

theorem arithmetic_ne_undefined (op : Arithmetic) (a b : Value) :
    arithmetic op a b ≠ .error (.undefined name) := by
  unfold arithmetic numberArithmetic
  split
  · simp
  · split
    · dsimp only
      split
      · simp
      · exact floatArithmetic_ne_undefined op _ _
    · exact floatArithmetic_ne_undefined op _ _

theorem lookup_eq_undefined_iff {path : String} :
    data.lookup path = .error (.undefined name) ↔
      (DataModel.splitPath path).1 = name ∧ data.isDeclared name = false := by
  rw [DataModel.lookup_eq]
  split
  · next h =>
    refine ⟨fun heq => (nomatch heq), ?_⟩
    rintro ⟨rfl, hnot⟩
    cases h.symm.trans hnot
  · next h =>
    simp only [Except.error.injEq, ExpressionError.undefined.injEq]
    refine ⟨?_, And.left⟩
    rintro rfl
    exact ⟨rfl, Bool.eq_false_iff.2 h⟩

/-- Of two steps the first or the second finds a variable undefined. -/
theorem undefined_of_bind {first : Except ExpressionError Value}
    {next : Value → Except ExpressionError Value} {names more : List String} {p : Prop}
    (h : first >>= next = .error (.undefined name))
    (hfirst : first = .error (.undefined name) → name ∈ names ∧ p)
    (hnext : ∀ v, next v = .error (.undefined name) → name ∈ more ∧ p) :
    name ∈ names ++ more ∧ p := by
  rcases bind_eq_error.1 h with hleft | ⟨v, -, hright⟩
  · exact (hfirst hleft).imp_left (List.mem_append_left _)
  · exact (hnext v hright).imp_left (List.mem_append_right _)

/-- The step after an operand, if it cannot fail. -/
theorem undefined_of_pure {first : Except ExpressionError Value} {f : Value → Value}
    (h : (do let v ← first; return f v) = .error (.undefined name)) :
    first = .error (.undefined name) := by
  rcases bind_eq_error.1 h with hfirst | ⟨v, -, hpure⟩
  · exact hfirst
  · cases hpure

/-- What is undefined is mentioned and not declared. -/
theorem undefined_of_eval (h : e.eval data = .error (.undefined name)) :
    name ∈ e.leadingNames ∧ data.isDeclared name = false := by
  induction e with
  | literal v => cases h
  | path path =>
      obtain ⟨rfl, hnot⟩ := lookup_eq_undefined_iff.1 h
      exact ⟨List.mem_singleton_self _, hnot⟩
  | not inner ih => exact ih (undefined_of_pure h)
  | and left right ihl ihr =>
      refine undefined_of_bind h ihl fun a hright => ?_
      split at hright
      · exact ihr (undefined_of_pure hright)
      · cases hright
  | or left right ihl ihr =>
      refine undefined_of_bind h ihl fun a hright => ?_
      split at hright
      · cases hright
      · exact ihr (undefined_of_pure hright)
  | compare op left right ihl ihr =>
      exact undefined_of_bind h ihl fun a hright => ihr (undefined_of_pure hright)
  | arith op left right ihl ihr =>
      refine undefined_of_bind h ihl fun a hright => ?_
      rcases bind_eq_error.1 hright with hoperand | ⟨b, -, harith⟩
      · exact ihr hoperand
      · exact absurd harith (arithmetic_ne_undefined op a b)

/-! ## Texts -/

theorem undefined_of_standard (h : Evaluator.standard text data = .error (.undefined name)) :
    Mentions text name ∧ data.isDeclared name = false := by
  rw [Evaluator.standard_eq] at h
  rcases Cursor.parse_eq_ok_or_unreadable text with ⟨e, he⟩ | ⟨shown, fault, hfault⟩
  · rw [he] at h
    obtain ⟨hmem, hnot⟩ := undefined_of_eval h
    exact ⟨⟨e, he, hmem⟩, hnot⟩
  · rw [hfault] at h
    cases h

end Expr

/-- A condition fails as its expression does. -/
theorem Evaluator.standard_holds_eq_error_iff {text : String} {data : DataModel}
    {error : ExpressionError} :
    standard.holds text data = .error error ↔ standard text data = .error error := by
  have hholds : standard.holds text data = (standard text data).map Value.isTruthy := rfl
  rw [hholds]
  cases standard text data <;> simp [Except.map]

end Statechart
