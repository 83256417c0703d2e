import Mathlib
import Statechart.Proofs.Float.Nearest

/-!
# Rounding of a float

A mantissa that is too long is shifted right one bit at a time, with a record of the bits that
fall out, and then rounded by that record.  Rounding may give it one bit more, so it is shifted
once again.

What remains are the digits of the mantissa, as `Nearest` defines them, and the exponent goes
with them (`round_eq`).  Exponents are taken to be far above the least one, so that no digits
are lost to it.
-/

namespace Statechart
namespace Binary64

open Float.Model Float.Model.UnpackedFloat

variable {m k n : Nat} {e : Int}

theorem finite_congr {s : Sign} {m' : Nat} {e' : Int} {hm : 0 < m} {hm' : 0 < m'}
    (hmantissa : m = m') (hexponent : e = e') :
    UnpackedFloat.finite s m e hm = .finite s m' e' hm' := by
  subst hmantissa hexponent
  rfl

theorem bounds_of_log2_eq (hlog : m.log2 = 52) : 2 ^ 52 ≤ m ∧ m < 2 ^ 53 := by
  have hne : m ≠ 0 := by
    rintro rfl
    cases hlog
  exact (Nat.log2_eq_iff hne).1 hlog

/-! ## Shifts -/

/-- Bits shifted out: the first of them, and whether any later one was set. -/
theorem shiftRight_exact (n k : Nat) :
    (⟨n, false, false⟩ : ExtendedMantissa) >>> k =
      ⟨n / 2 ^ k, decide (2 ^ k ≤ 2 * (n % 2 ^ k)),
        decide (2 * (n % 2 ^ k) ≠ 0 ∧ 2 * (n % 2 ^ k) ≠ 2 ^ k)⟩ := by
  induction k with
  | zero => simp [HShiftRight.hShiftRight, Nat.repeat, Nat.mod_one]
  | succ k ih =>
      have hstep : (⟨n, false, false⟩ : ExtendedMantissa) >>> (k + 1) =
          ((⟨n, false, false⟩ : ExtendedMantissa) >>> k).shiftRightOne := rfl
      have hdiv : n / 2 ^ k / 2 = n / 2 ^ (k + 1) := by
        rw [Nat.div_div_eq_div_mul, Nat.pow_succ]
      have hmod : n % 2 ^ (k + 1) = n % 2 ^ k + 2 ^ k * (n / 2 ^ k % 2) := Nat.mod_pow_succ
      have hlt : n % 2 ^ k < 2 ^ k := Nat.mod_lt _ (Nat.two_pow_pos k)
      rw [hstep, ih, ExtendedMantissa.shiftRightOne, hdiv, hmod, Nat.pow_succ]
      refine congrArg₂ (ExtendedMantissa.mk _) ?_ ?_ <;>
        rcases Nat.mod_two_eq_zero_or_one (n / 2 ^ k) with hbit | hbit <;>
        rw [Bool.eq_iff_iff, hbit] <;>
        simp only [bne_iff_ne, Bool.or_eq_true, decide_eq_true_eq] <;>
        omega

theorem roundedMantissa_shiftRight (n k : Nat) :
    ((⟨n, false, false⟩ : ExtendedMantissa) >>> k).roundedMantissa = halfEven n k := by
  rw [shiftRight_exact, halfEven]
  generalize 2 * (n % 2 ^ k) = r
  rcases lt_trichotomy r (2 ^ k) with hless | heq | hmore
  · rw [if_pos hless, decide_eq_false (Nat.not_le.2 hless)]
    cases decide (r ≠ 0 ∧ r ≠ 2 ^ k) <;> rfl
  · have hsticky : ¬ (r ≠ 0 ∧ r ≠ 2 ^ k) := fun h => h.2 heq
    rw [if_neg heq.not_lt, if_pos heq, decide_eq_true heq.ge, decide_eq_false hsticky]
    rfl
  · have hsticky : r ≠ 0 ∧ r ≠ 2 ^ k := ⟨Nat.ne_zero_of_lt hmore, hmore.ne'⟩
    rw [if_neg hmore.not_gt, if_neg hmore.ne', decide_eq_true hmore.le, decide_eq_true hsticky]
    rfl

theorem targetExponent_eq (h : -1000 ≤ m.log2 + e) :
    Format.binary64.targetExponent (totalExponent m e) = m.log2 + e - 52 := by
  have hbits : Format.binary64.mantissaBits = 53 := rfl
  have hmin : Format.binary64.minExponent = -1074 := rfl
  rw [Format.targetExponent, totalExponent, hbits, hmin]
  omega

theorem shiftToTargetExponent_exact (h : -1000 ≤ m.log2 + e) :
    shiftToTargetExponent Format.binary64 m e .exact =
      ((⟨m, false, false⟩ : ExtendedMantissa) >>> (m.log2 - 52), e + (m.log2 - 52 : Nat)) := by
  have hshift : (m.log2 + e - 52 - e).toNat = m.log2 - 52 := by omega
  rw [shiftToTargetExponent, shiftToExponent, targetExponent_eq h, hshift]
  rfl

/-! ## Digits -/

/-- Digits that have spilled over into a further bit give it back. -/
theorem digits_eq_mul_two_pow (hn : n ≠ 0) :
    ∃ m c, m.log2 = 52 ∧ (digits n).log2 = 52 + c ∧ digits n = m * 2 ^ c := by
  rcases (digits_le n).lt_or_eq with hlt | heq
  · have hlog : (digits n).log2 = 52 :=
      (Nat.log2_eq_iff (Nat.ne_zero_of_lt (two_pow_le_digits hn))).2 ⟨two_pow_le_digits hn, hlt⟩
    exact ⟨digits n, 0, hlog, hlog, (Nat.mul_one _).symm⟩
  · rw [heq]
    exact ⟨2 ^ 52, 1, rfl, rfl, rfl⟩

/-- A number of at least 53 bits is cut down to its digits. -/
theorem roundWithAccuracy_eq (s : Sign) (hlong : 52 ≤ n.log2) (h : -1000 ≤ n.log2 + e) :
    ∃ (m c : Nat) (hm : 0 < m), roundWithAccuracy Format.binary64 s n e .exact =
      .finite s m (n.log2 + c + e - 52) hm ∧ m.log2 = 52 ∧ m * 2 ^ c = digits n := by
  have hn : n ≠ 0 := by
    rintro rfl
    cases hlong
  obtain ⟨m, c, hlog, hspill, hdigits⟩ := digits_eq_mul_two_pow hn
  have hm : 0 < m := (Nat.two_pow_pos 52).trans_le (bounds_of_log2_eq hlog).1
  refine ⟨m, c, hm, ?_, hlog, hdigits.symm⟩
  have hrounded : ((⟨n, false, false⟩ : ExtendedMantissa) >>> (n.log2 - 52)).roundedMantissa =
      digits n := by
    rw [roundedMantissa_shiftRight, digits_of_le_log2 hlong]
  have hexponent : e + (n.log2 - 52 : Nat) = n.log2 + e - 52 := by omega
  have hagain : (⟨digits n, false, false⟩ : ExtendedMantissa) >>> c = ⟨m, false, false⟩ := by
    rw [shiftRight_exact, hdigits]
    simp
  have hsecond : shiftToTargetExponent Format.binary64 (digits n) (n.log2 + e - 52) .exact =
      (⟨m, false, false⟩, n.log2 + c + e - 52) := by
    rw [shiftToTargetExponent_exact (by omega), hspill, Nat.add_sub_cancel_left, hagain]
    congr 1
    omega
  simp only [roundWithAccuracy, shiftToTargetExponent_exact h, hrounded, hexponent, hsecond,
    dif_neg hm.ne']

/-- Rounding keeps the digits, whatever the exponent is. -/
theorem round_eq (s : Sign) (hn : n ≠ 0) (h : -1000 ≤ n.log2 + e) :
    ∃ (m c : Nat) (hm : 0 < m), UnpackedFloat.round Format.binary64 s n e =
      .finite s m (n.log2 + c + e - 52) hm ∧ m.log2 = 52 ∧ m * 2 ^ c = digits n := by
  -- a short number is first written with 53 bits
  have hdecrease : decreaseExponent n e (Format.binary64.targetExponent (totalExponent n e)) =
      (n * 2 ^ (52 - n.log2), e - (52 - n.log2 : Nat)) := by
    have hshift : (e - (n.log2 + e - 52)).toNat = 52 - n.log2 := by omega
    rw [decreaseExponent, targetExponent_eq h, hshift, Nat.shiftLeft_eq]
  have hlog := log2_mul_two_pow hn (52 - n.log2)
  obtain ⟨m, c, hm, hround, hmlog, hdigits⟩ :=
    roundWithAccuracy_eq (n := n * 2 ^ (52 - n.log2)) (e := e - (52 - n.log2 : Nat)) s
      (by omega) (by omega)
  rw [digits_mul_two_pow hn] at hdigits
  refine ⟨m, c, hm, ?_, hmlog, hdigits⟩
  rw [UnpackedFloat.round, hdecrease]
  refine hround.trans (finite_congr rfl ?_)
  omega

end Binary64
end Statechart
