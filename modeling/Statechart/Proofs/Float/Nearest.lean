import Mathlib.Data.Nat.Log
import Mathlib.Tactic.Ring

/-!
# The nearest number of 53 bits

A float has 53 significant bits.  An integer that needs more is rounded to the nearest number
that does not, and to the one with an even last bit if two are equally near.  `nearest` says so
for natural numbers and `rounded` for integers.

Rounding keeps the order, weakly (`rounded_mono`), and up to `2 ^ 53` it changes nothing
(`rounded_of_natAbs_le`).  Beyond that it joins neighbours.
-/

namespace Statechart
namespace Binary64

variable {n n' k : Nat} {a b : Int}

/-- The integer nearest to `n / 2 ^ k`, the even one if there are two. -/
def halfEven (n k : Nat) : Nat :=
  if 2 * (n % 2 ^ k) < 2 ^ k then n / 2 ^ k
  else if 2 * (n % 2 ^ k) = 2 ^ k then n / 2 ^ k + n / 2 ^ k % 2
  else n / 2 ^ k + 1

/-- The 53 significant bits of `n`, the last of them rounded. -/
def digits (n : Nat) : Nat := halfEven (n * 2 ^ 52) n.log2

/-- The number of 53 significant bits nearest to `n`. -/
def nearest (n : Nat) : Nat := halfEven n (n.log2 - 52) * 2 ^ (n.log2 - 52)

/-- The number of 53 significant bits nearest to an integer. -/
def rounded (a : Int) : Int := if a < 0 then -(nearest a.natAbs : Int) else nearest a.natAbs

/-! ## Halves -/

@[simp] theorem halfEven_zero : halfEven n 0 = n := by
  simp [halfEven, Nat.mod_one]

theorem le_halfEven : n / 2 ^ k ≤ halfEven n k := by
  unfold halfEven
  split_ifs <;> omega

theorem halfEven_le : halfEven n k ≤ n / 2 ^ k + 1 := by
  unfold halfEven
  split_ifs <;> omega

/-- No multiple of the unit is nearer. -/
theorem halfEven_nearest (m : Nat) :
    ((halfEven n k * 2 ^ k : Nat) - n : Int).natAbs ≤ ((m * 2 ^ k : Nat) - n : Int).natAbs := by
  have hdiv : 2 ^ k * (n / 2 ^ k) + n % 2 ^ k = n := Nat.div_add_mod n (2 ^ k)
  have hmod : n % 2 ^ k < 2 ^ k := Nat.mod_lt n (Nat.two_pow_pos k)
  have hnext : (n / 2 ^ k + 1) * 2 ^ k = 2 ^ k * (n / 2 ^ k) + 2 ^ k := by ring
  have hquotient : n / 2 ^ k * 2 ^ k = 2 ^ k * (n / 2 ^ k) := Nat.mul_comm _ _
  -- the multiple is on one side of the number
  have hside : m * 2 ^ k ≤ n / 2 ^ k * 2 ^ k ∨ (n / 2 ^ k + 1) * 2 ^ k ≤ m * 2 ^ k :=
    (Nat.lt_or_ge (n / 2 ^ k) m).symm.imp (Nat.mul_le_mul_right _) (Nat.mul_le_mul_right _)
  unfold halfEven
  split_ifs with hless heq
  · omega
  · rcases Nat.mod_two_eq_zero_or_one (n / 2 ^ k) with heven | hodd
    · rw [heven, Nat.add_zero]
      omega
    · rw [hodd]
      omega
  · omega

theorem halfEven_mono (h : n ≤ n') : halfEven n k ≤ halfEven n' k := by
  rcases (Nat.div_le_div_right (c := 2 ^ k) h).lt_or_eq with hlt | heq
  · exact halfEven_le.trans (hlt.trans_le le_halfEven)
  · -- with one quotient the remainders are in the order of the numbers
    have hmod : n % 2 ^ k ≤ n' % 2 ^ k := by
      have hn := Nat.div_add_mod n (2 ^ k)
      have hn' := Nat.div_add_mod n' (2 ^ k)
      rw [heq] at hn
      omega
    unfold halfEven
    rw [heq]
    split_ifs <;> omega

/-- A number of larger units, counted in small ones. -/
theorem halfEven_mul_two_pow_add (j : Nat) : halfEven (n * 2 ^ j) (k + j) = halfEven n k := by
  have hpos : 0 < 2 ^ j := Nat.two_pow_pos j
  have hdiv : n * 2 ^ j / 2 ^ (k + j) = n / 2 ^ k := by
    rw [Nat.pow_add, Nat.mul_div_mul_right _ _ hpos]
  have hmod : 2 * (n * 2 ^ j % 2 ^ (k + j)) = 2 * (n % 2 ^ k) * 2 ^ j := by
    rw [Nat.pow_add, Nat.mul_mod_mul_right, Nat.mul_assoc]
  rw [halfEven, halfEven, hdiv, hmod, Nat.pow_add]
  simp only [Nat.mul_lt_mul_right hpos, Nat.mul_left_inj hpos.ne']

/-! ## Natural numbers -/

theorem log2_mul_two_pow (hn : n ≠ 0) (j : Nat) : (n * 2 ^ j).log2 = n.log2 + j := by
  have hpos : 0 < 2 ^ j := Nat.two_pow_pos j
  rw [Nat.log2_eq_iff (Nat.mul_ne_zero hn hpos.ne'), Nat.add_right_comm, Nat.pow_add, Nat.pow_add]
  exact ⟨Nat.mul_le_mul_right _ (Nat.log2_self_le hn),
    Nat.mul_lt_mul_of_pos_right Nat.lt_log2_self hpos⟩

theorem digits_mul_two_pow (hn : n ≠ 0) (j : Nat) : digits (n * 2 ^ j) = digits n := by
  rw [digits, log2_mul_two_pow hn, Nat.mul_right_comm, halfEven_mul_two_pow_add, digits]

theorem two_pow_le_digits (hn : n ≠ 0) : 2 ^ 52 ≤ digits n := by
  have hquotient : 2 ^ 52 ≤ n * 2 ^ 52 / 2 ^ n.log2 := by
    rw [Nat.le_div_iff_mul_le (Nat.two_pow_pos _), Nat.mul_comm]
    exact Nat.mul_le_mul_right _ (Nat.log2_self_le hn)
  exact hquotient.trans le_halfEven

theorem digits_le (n : Nat) : digits n ≤ 2 ^ 53 := by
  have hquotient : n * 2 ^ 52 / 2 ^ n.log2 < 2 ^ 53 := by
    rw [Nat.div_lt_iff_lt_mul (Nat.two_pow_pos _)]
    calc n * 2 ^ 52 < 2 ^ (n.log2 + 1) * 2 ^ 52 :=
          Nat.mul_lt_mul_of_pos_right Nat.lt_log2_self (Nat.two_pow_pos _)
      _ = 2 ^ 53 * 2 ^ n.log2 := by ring
  exact halfEven_le.trans hquotient

/-- Of a number with at least 53 bits the digits are its first bits. -/
theorem digits_of_le_log2 (h : 52 ≤ n.log2) : digits n = halfEven n (n.log2 - 52) := by
  have hscale := halfEven_mul_two_pow_add (n := n) (k := n.log2 - 52) 52
  rw [Nat.sub_add_cancel h] at hscale
  rw [digits, hscale]

/-- The nearest number has the digits of the number, at the place of its first bit. -/
theorem nearest_mul_two_pow (n : Nat) : nearest n * 2 ^ 52 = digits n * 2 ^ n.log2 := by
  rcases Nat.le_total n.log2 52 with hsmall | hlarge
  · have hdigits : digits n = n * 2 ^ (52 - n.log2) := by
      have hsplit : n * 2 ^ 52 = n * 2 ^ (52 - n.log2) * 2 ^ n.log2 := by
        rw [Nat.mul_assoc, ← Nat.pow_add, Nat.sub_add_cancel hsmall]
      have hscale := halfEven_mul_two_pow_add (n := n * 2 ^ (52 - n.log2)) (k := 0) n.log2
      rw [Nat.zero_add, halfEven_zero] at hscale
      rw [digits, hsplit, hscale]
    rw [hdigits, nearest, Nat.sub_eq_zero_of_le hsmall, halfEven_zero, Nat.pow_zero, Nat.mul_one,
      Nat.mul_assoc, ← Nat.pow_add, Nat.sub_add_cancel hsmall]
  · rw [digits_of_le_log2 hlarge, nearest, Nat.mul_assoc, ← Nat.pow_add,
      Nat.sub_add_cancel hlarge]

theorem two_pow_le_nearest (h : n ≠ 0) : 2 ^ n.log2 ≤ nearest n := by
  refine Nat.le_of_mul_le_mul_right ?_ (Nat.two_pow_pos 52)
  rw [nearest_mul_two_pow, Nat.mul_comm]
  exact Nat.mul_le_mul_right _ (two_pow_le_digits h)

theorem nearest_le_two_pow (n : Nat) : nearest n ≤ 2 ^ (n.log2 + 1) := by
  refine Nat.le_of_mul_le_mul_right ?_ (Nat.two_pow_pos 52)
  calc nearest n * 2 ^ 52 = digits n * 2 ^ n.log2 := nearest_mul_two_pow n
    _ ≤ 2 ^ 53 * 2 ^ n.log2 := Nat.mul_le_mul_right _ (digits_le n)
    _ = 2 ^ (n.log2 + 1) * 2 ^ 52 := by ring

theorem nearest_le_two_mul (n : Nat) : nearest n ≤ 2 * n := by
  rcases Nat.eq_zero_or_pos n with rfl | hpos
  · exact Nat.le_refl 0
  · calc nearest n ≤ 2 ^ (n.log2 + 1) := nearest_le_two_pow n
      _ = 2 * 2 ^ n.log2 := by rw [Nat.pow_succ, Nat.mul_comm]
      _ ≤ 2 * n := Nat.mul_le_mul_left _ (Nat.log2_self_le hpos.ne')

theorem nearest_mono (h : n ≤ n') : nearest n ≤ nearest n' := by
  rcases Nat.eq_zero_or_pos n with rfl | hpos
  · exact Nat.zero_le _
  have hn : n ≠ 0 := hpos.ne'
  have hn' : n' ≠ 0 := (hpos.trans_le h).ne'
  have hlog : n.log2 ≤ n'.log2 := by
    rw [Nat.le_log2 hn']
    exact (Nat.log2_self_le hn).trans h
  rcases hlog.lt_or_eq with hlt | heq
  · calc nearest n ≤ 2 ^ (n.log2 + 1) := nearest_le_two_pow n
      _ ≤ 2 ^ n'.log2 := Nat.pow_le_pow_right (by decide) hlt
      _ ≤ nearest n' := two_pow_le_nearest hn'
  · rw [nearest, nearest, heq]
    exact Nat.mul_le_mul_right _ (halfEven_mono h)

theorem nearest_of_le (h : n ≤ 2 ^ 53) : nearest n = n := by
  rcases h.lt_or_eq with hlt | rfl
  · have hsmall : n.log2 ≤ 52 := by
      rcases Nat.eq_zero_or_pos n with rfl | hpos
      · decide
      · exact Nat.lt_succ_iff.1 ((Nat.log2_lt hpos.ne').2 hlt)
    rw [nearest, Nat.sub_eq_zero_of_le hsmall, halfEven_zero, Nat.pow_zero, Nat.mul_one]
  · rfl

theorem nearest_pos (h : n ≠ 0) : 0 < nearest n :=
  (Nat.two_pow_pos _).trans_le (two_pow_le_nearest h)

/-! ## Integers -/

@[simp] theorem rounded_zero : rounded 0 = 0 := rfl

theorem rounded_of_nonneg (h : 0 ≤ a) : rounded a = nearest a.natAbs := if_neg (Int.not_lt.2 h)

theorem rounded_of_neg (h : a < 0) : rounded a = -(nearest a.natAbs : Int) := if_pos h

theorem rounded_of_natAbs_le (h : a.natAbs ≤ 2 ^ 53) : rounded a = a := by
  unfold rounded
  rw [nearest_of_le h]
  split_ifs <;> omega

theorem rounded_mono (h : a ≤ b) : rounded a ≤ rounded b := by
  rcases lt_or_ge a 0 with ha | ha <;> rcases lt_or_ge b 0 with hb | hb
  · have hmono : nearest b.natAbs ≤ nearest a.natAbs := nearest_mono (by omega)
    rw [rounded_of_neg ha, rounded_of_neg hb]
    omega
  · rw [rounded_of_neg ha, rounded_of_nonneg hb]
    omega
  · omega
  · have hmono : nearest a.natAbs ≤ nearest b.natAbs := nearest_mono (by omega)
    rw [rounded_of_nonneg ha, rounded_of_nonneg hb]
    omega

theorem natAbs_rounded (a : Int) : (rounded a).natAbs = nearest a.natAbs := by
  unfold rounded
  split_ifs <;> omega

theorem natAbs_rounded_le (a : Int) : (rounded a).natAbs ≤ 2 * a.natAbs := by
  rw [natAbs_rounded]
  exact nearest_le_two_mul _

/-- Rounding keeps the sign: nothing but zero becomes zero. -/
theorem rounded_eq_zero_iff : rounded a = 0 ↔ a = 0 := by
  refine ⟨fun h => ?_, fun h => by rw [h, rounded_zero]⟩
  by_contra hne
  have hpos : 0 < nearest a.natAbs := nearest_pos (by omega)
  unfold rounded at h
  split_ifs at h <;> omega

theorem rounded_pos_iff : 0 < rounded a ↔ 0 < a := by
  constructor
  · intro h
    by_contra hle
    have hmono := rounded_mono (Int.not_lt.1 hle)
    rw [rounded_zero] at hmono
    omega
  · intro h
    have hmono := rounded_mono h.le
    rw [rounded_zero] at hmono
    have hne : rounded a ≠ 0 := fun heq => h.ne' (rounded_eq_zero_iff.1 heq)
    omega

end Binary64
end Statechart
