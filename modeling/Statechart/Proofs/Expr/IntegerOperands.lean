import Statechart.Proofs.Float.Integers

/-!
# Expressions on integers

Sums and differences of integers are exact, comparisons are not: they look at floats, that is, at
the nearest numbers of 53 bits.  Two integers that have the same nearest number are equal to `==`
and neither is above the other, though their difference is not zero.

A comparison errs in this one way.  Up to `2 ^ 53` there is nothing to round, and no order is
turned around, so what `<`, `>` and `!=` say of two integers is true.  And comparing a difference
with zero is exact, as a number keeps its sign when it is rounded.
-/

namespace Statechart

/-- The answer of a comparison of two integers. -/
def Comparison.onInts (op : Comparison) (a b : Int) : Bool :=
  match op with
  | .equal => a == b
  | .unequal => a != b
  | .greater => b < a
  | .atLeast => b ≤ a
  | .less => a < b
  | .atMost => a ≤ b

namespace Expr

open Binary64

/-- Operands that are integers of 64 bits: literals, and variables with such a value. -/
inductive Gives (data : DataModel) : Expr → Int → Prop
  | literal {a : Int} (hfits : Value.fitsInt a = true) : Gives data (literal (.int a)) a
  | path {name : String} {a : Int} (hvalue : data.lookup name = .ok (.int a))
    (hfits : Value.fitsInt a = true) : Gives data (path name) a

variable {data : DataModel} {l r : Expr} {a b : Int} {op : Comparison} {text : String}

theorem Gives.eval (h : Gives data l a) : l.eval data = .ok (.int a) := by
  cases h with
  | literal => rfl
  | path hvalue => exact hvalue

theorem Gives.fits (h : Gives data l a) : Value.fitsInt a = true := by
  cases h with
  | literal hfits => exact hfits
  | path _ hfits => exact hfits

theorem standard_of_parse {e : Expr} (h : parse text = .ok e) :
    Evaluator.standard text data = e.eval data := by
  rw [Evaluator.standard_eq, h]

/-! ## Comparisons -/

/-- Integers of 64 bits are compared as the numbers nearest to them. -/
theorem compareValues_int (ha : Value.fitsInt a = true) (hb : Value.fitsInt b = true) :
    compareValues op (.int a) (.int b) = op.onInts (rounded a) (rounded b) := by
  have hx := holds_floatOfInt ha
  have hy := holds_floatOfInt hb
  have hequal : looselyEqual (.int a) (.int b) = decide (rounded a = rounded b) := by
    have hsize := natAbs_rounded_le a
    have hsize' := natAbs_rounded_le b
    have hlimit := natAbs_le_of_fitsInt ha
    have hlimit' := natAbs_le_of_fitsInt hb
    exact decide_eq_decide.2 (abs_sub_lt_tolerance_iff hx hy (by omega) (by omega))
  cases op with
  | equal => rw [compareValues, hequal]; rfl
  | unequal => rw [compareValues, hequal]; rfl
  | greater => exact decide_eq_decide.2 (lt_iff_of_holds hy hx)
  | atLeast => exact decide_eq_decide.2 (le_iff_of_holds hy hx)
  | less => exact decide_eq_decide.2 (lt_iff_of_holds hx hy)
  | atMost => exact decide_eq_decide.2 (le_iff_of_holds hx hy)

theorem eval_compare (ha : l.eval data = .ok (.int a)) (hb : r.eval data = .ok (.int b))
    (hfits : Value.fitsInt a = true) (hfits' : Value.fitsInt b = true) :
    (compare op l r).eval data = .ok (.bool (op.onInts (rounded a) (rounded b))) := by
  rw [eval, ha, hb, ← compareValues_int hfits hfits']
  rfl

theorem onInts_rounded_of_le (ha : a.natAbs ≤ 2 ^ 53) (hb : b.natAbs ≤ 2 ^ 53) :
    op.onInts (rounded a) (rounded b) = op.onInts a b := by
  rw [rounded_of_natAbs_le ha, rounded_of_natAbs_le hb]

/-- Where rounding leaves two integers apart they are apart, and in the same order. -/
theorem onInts_of_onInts_rounded (hop : op = .less ∨ op = .greater ∨ op = .unequal)
    (h : op.onInts (rounded a) (rounded b) = true) : op.onInts a b = true := by
  rcases hop with rfl | rfl | rfl
  · refine decide_eq_true (Int.not_le.1 fun hle => ?_)
    exact Int.not_lt.2 (rounded_mono hle) (of_decide_eq_true h)
  · refine decide_eq_true (Int.not_le.1 fun hle => ?_)
    exact Int.not_lt.2 (rounded_mono hle) (of_decide_eq_true h)
  · refine bne_iff_ne.2 fun heq => ?_
    exact bne_iff_ne.1 h (congrArg rounded heq)

theorem onInts_rounded_sub : op.onInts (rounded (a - b)) (rounded 0) = op.onInts a b := by
  have hzero : rounded (a - b) = 0 ↔ a - b = 0 := rounded_eq_zero_iff
  have hpos : 0 < rounded (a - b) ↔ 0 < a - b := rounded_pos_iff
  rw [rounded_zero, Bool.eq_iff_iff]
  cases op <;> simp only [Comparison.onInts, beq_iff_eq, bne_iff_ne, decide_eq_true_eq] <;> omega

/-! ## Arithmetic -/

theorem arithmetic_int (op : Arithmetic) (ha : Value.fitsInt a = true)
    (hb : Value.fitsInt b = true) :
    arithmetic op (.int a) (.int b) =
      if Value.fitsInt (Arithmetic.onInts op a b) then .ok (.int (Arithmetic.onInts op a b))
      else floatArithmetic op (.int a) (.int b) := by
  have hm : (Value.int a).int? = some a := Value.int?_eq_some_iff.2 ⟨rfl, ha⟩
  have hn : (Value.int b).int? = some b := Value.int?_eq_some_iff.2 ⟨rfl, hb⟩
  have hnumbers : arithmetic op (.int a) (.int b) = numberArithmetic op (.int a) (.int b) := by
    cases op <;> rfl
  rw [hnumbers, numberArithmetic, hm, hn]

theorem floatArithmetic_ne_int (op : Arithmetic) (v w : Value) (n : Int) :
    floatArithmetic op v w ≠ .ok (.int n) := by
  unfold floatArithmetic
  intro h
  split at h
  · dsimp only at h
    split at h <;> cases h
  · cases h

/-- A result that 64 bits hold is exact, and any other is no integer. -/
theorem eval_arith_eq_int_iff (op : Arithmetic) (ha : Gives data l a) (hb : Gives data r b)
    (n : Int) : (arith op l r).eval data = .ok (.int n) ↔
      n = Arithmetic.onInts op a b ∧ Value.fitsInt n = true := by
  have heval : (arith op l r).eval data = arithmetic op (.int a) (.int b) := by
    rw [eval, ha.eval, hb.eval]
    rfl
  rw [heval, arithmetic_int op ha.fits hb.fits]
  split
  next hfits =>
    constructor
    · intro h
      cases h
      exact ⟨rfl, hfits⟩
    · rintro ⟨rfl, -⟩
      rfl
  next hfits =>
    refine iff_of_false (floatArithmetic_ne_int op _ _ n) ?_
    rintro ⟨rfl, hn⟩
    exact hfits hn

/-! ## Both -/

/-- Two operands that are integers `a` and `b` of 64 bits, whatever the text is in which they are
joined:

* a comparison is that of the numbers of 53 bits nearest to `a` and `b`;
* up to `2 ^ 53` it is that of `a` and `b`;
* beyond, `<`, `>` and `!=` are still to be relied on where they hold;
* a sum or a difference is an integer if 64 bits hold it, and then it is the exact one;
* a difference that 64 bits hold compares with zero as `a` with `b`. -/
theorem compares_rounded (ha : Gives data l a) (hb : Gives data r b) :
    (∀ op text, parse text = .ok (compare op l r) →
      Evaluator.standard text data = .ok (.bool (op.onInts (rounded a) (rounded b)))) ∧
    (∀ op text, parse text = .ok (compare op l r) → a.natAbs ≤ 2 ^ 53 → b.natAbs ≤ 2 ^ 53 →
      Evaluator.standard text data = .ok (.bool (op.onInts a b))) ∧
    (∀ op text, parse text = .ok (compare op l r) → op = .less ∨ op = .greater ∨ op = .unequal →
      Evaluator.standard text data = .ok (.bool true) → op.onInts a b = true) ∧
    (∀ op text n, parse text = .ok (arith op l r) →
      (Evaluator.standard text data = .ok (.int n) ↔
        n = Arithmetic.onInts op a b ∧ Value.fitsInt n = true)) ∧
    (∀ op text zero, parse text = .ok (compare op (arith .sub l r) zero) → Gives data zero 0 →
      Value.fitsInt (a - b) = true →
      Evaluator.standard text data = .ok (.bool (op.onInts a b))) := by
  have hcompare (op : Comparison) (text : String) (htext : parse text = .ok (compare op l r)) :
      Evaluator.standard text data = .ok (.bool (op.onInts (rounded a) (rounded b))) := by
    rw [standard_of_parse htext, eval_compare ha.eval hb.eval ha.fits hb.fits]
  refine ⟨hcompare, fun op text htext hsmall hsmall' => ?_, fun op text htext hop htrue => ?_,
    fun op text n htext => ?_, fun op text zero htext hzero hfits => ?_⟩
  · rw [hcompare op text htext, onInts_rounded_of_le hsmall hsmall']
  · rw [hcompare op text htext] at htrue
    injection htrue with htrue
    injection htrue with htrue
    exact onInts_of_onInts_rounded hop htrue
  · rw [standard_of_parse htext, eval_arith_eq_int_iff op ha hb]
  · have hsub : (arith .sub l r).eval data = .ok (.int (a - b)) :=
      (eval_arith_eq_int_iff .sub ha hb _).2 ⟨rfl, hfits⟩
    rw [standard_of_parse htext, eval_compare hsub hzero.eval hfits hzero.fits, onInts_rounded_sub]

/-- A variable with the first odd number that has more than 53 bits. -/
def oddData : DataModel := .mk [("x", .int 9007199254740993)]

theorem compares_rounded_odd :
    Gives oddData (.path "x") 9007199254740993 ∧
    Gives oddData (.literal (.int 9007199254740992)) 9007199254740992 ∧
    Evaluator.standard "x == 9007199254740992" oddData = .ok (.bool true) ∧
    Evaluator.standard "x - 9007199254740992" oddData = .ok (.int 1) ∧
    Evaluator.standard "x - 9007199254740992 > 0" oddData = .ok (.bool true) := by
  have hx : Gives oddData (.path "x") 9007199254740993 := .path rfl rfl
  have hliteral : Gives oddData (.literal (.int 9007199254740992)) 9007199254740992 :=
    .literal rfl
  obtain ⟨hcompare, -, -, harith, hzero⟩ := compares_rounded hx hliteral
  exact ⟨hx, hliteral, hcompare .equal _ rfl, (harith .sub _ _ rfl).2 ⟨rfl, rfl⟩,
    hzero .greater _ _ rfl (.literal rfl) rfl⟩

/-- Two integers of 64 bits that differ and yet are equal, though their difference is not. -/
theorem equal_to_neighbour :
    Value.fitsInt 9007199254740993 = true ∧ Value.fitsInt 9007199254740992 = true ∧
    Evaluator.standard "9007199254740993 == 9007199254740992" .empty = .ok (.bool true) ∧
    Evaluator.standard "9007199254740993 > 9007199254740992" .empty = .ok (.bool false) ∧
    Evaluator.standard "9007199254740993 - 9007199254740992 == 0" .empty = .ok (.bool false) :=
  ⟨rfl, rfl, rfl, rfl, rfl⟩

end Expr
end Statechart
