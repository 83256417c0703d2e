import Statechart.Expr.Eval
import Statechart.Proofs.Float.Rounding

/-!
# Floats that hold integers

`Holds` relates a float to the integer that it is.  An integer of 64 bits is turned into the
float that holds it rounded to 53 bits (`holds_floatOfInt`), and such floats compare as the
integers they hold.

Their difference is taken exactly and then rounded, and rounding makes nothing zero that is not.
So the tolerance, which is far below 1, plays no part between integers: two floats pass the test
for equality only if they hold the same integer (`abs_sub_lt_tolerance_iff`).
-/

namespace Statechart
namespace Binary64

open Float.Model Float.Model.UnpackedFloat

variable {u w : UnpackedFloat} {v v' : Int} {m k n : Nat}

/-- The float is the integer, kept as the format keeps it: with 53 bits, of which the first is
set. -/
inductive Holds : UnpackedFloat → Int → Prop
  | zero (s : Sign) : Holds (.zero s) 0
  | finite (s : Sign) {m k v : Nat} {hm : 0 < m} (hlog : m.log2 = 52)
    (hvalue : m * 2 ^ k = v * 2 ^ 52) : Holds (.finite s m (k - 52) hm) (s.apply v)

/-! ## Packing -/

@[simp] theorem natAbs_apply (s : Sign) (n : Nat) : (s.apply n).natAbs = n := by
  cases s <;> simp [Sign.apply]

/-- A pattern whose exponent is neither that of infinities nor that of zeros. -/
theorem unpack_packComponents {spec : Format} {s : Sign} {exponent : BitVec spec.exponentBits}
    {mantissa : BitVec spec.mantissaBitsWithoutImplicit} (hones : exponent ≠ -1#_)
    (hzeros : exponent ≠ 0#_) :
    UnpackedFloat.unpack spec (packComponents spec s exponent mantissa) =
      .finite s (1#1 ++ mantissa).toNat
        (exponent.toNat - (spec.exponentBias + spec.mantissaBitsWithoutImplicit)) (by simp) := by
  simp only [UnpackedFloat.unpack, unpackMantissa_packComponents, unpackExponent_packComponents,
    unpackSign_packComponents, Sign.ofBitVec_toBitVec, if_neg hones, if_neg hzeros]

theorem exponent_le (hlog : m.log2 = 52) (hvalue : m * 2 ^ k = n * 2 ^ 52) (hn : n ≤ 2 ^ 100) :
    k ≤ 100 := by
  have hpow : 2 ^ k ≤ 2 ^ 100 := by
    refine (Nat.le_of_mul_le_mul_left ?_ (Nat.two_pow_pos 52)).trans hn
    calc 2 ^ 52 * 2 ^ k ≤ m * 2 ^ k := Nat.mul_le_mul_right _ (bounds_of_log2_eq hlog).1
      _ = 2 ^ 52 * n := by rw [hvalue, Nat.mul_comm]
  exact (Nat.pow_le_pow_iff_right (by decide)).1 hpow

theorem pack_finite (s : Sign) {hm : 0 < m} (hlog : m.log2 = 52) (hk : k ≤ 100) :
    UnpackedFloat.pack Format.binary64 (.finite s m (k - 52) hm) =
      packComponents Format.binary64 s (BitVec.ofNat 11 (k + 1023)) (BitVec.ofNat 52 m) := by
  have hbiased : (((k : Int) - 52) + Format.binary64.exponentBias +
      Format.binary64.mantissaBitsWithoutImplicit).toNat = k + 1023 := by
    simp only [Format.exponentBias]
    omega
  have hfits : ¬ 2 ^ Format.binary64.exponentBits ≤ k + 1023 + 1 := by
    show ¬ 2 ^ 11 ≤ k + 1023 + 1
    omega
  rw [UnpackedFloat.pack, hbiased, if_neg hfits, if_pos (by rw [hlog]; rfl)]

/-- The first bit of a mantissa is not stored. -/
theorem toNat_mantissa (hlog : m.log2 = 52) : (1#1 ++ BitVec.ofNat 52 m).toNat = m := by
  obtain ⟨hle, hlt⟩ := bounds_of_log2_eq hlog
  rw [BitVec.toNat_append, ← Nat.shiftLeft_add_eq_or_of_lt (BitVec.ofNat 52 m).isLt]
  simp only [Nat.shiftLeft_eq, BitVec.toNat_ofNat]
  omega

/-- What is packed is what was unpacked. -/
theorem Holds.unpack_pack (h : Holds u v) (hv : v.natAbs ≤ 2 ^ 100) :
    (Float.Model.pack u).unpack = u := by
  cases h with
  | zero s => cases s <;> rfl
  | @finite s m k n hm hlog hvalue =>
      rw [natAbs_apply] at hv
      have hk := exponent_le hlog hvalue hv
      have hexponent : (BitVec.ofNat 11 (k + 1023)).toNat = k + 1023 := by
        rw [BitVec.toNat_ofNat, Nat.mod_eq_of_lt (by omega)]
      -- neither the pattern of infinities nor that of zeros
      have hones : BitVec.ofNat 11 (k + 1023) ≠ -1#11 := by
        intro heq
        have hnat := congrArg BitVec.toNat heq
        have hpattern : (-1#11).toNat = 2047 := rfl
        omega
      have hzeros : BitVec.ofNat 11 (k + 1023) ≠ 0#11 := by
        intro heq
        have hnat := congrArg BitVec.toNat heq
        have hpattern : (0#11).toNat = 0 := rfl
        omega
      show UnpackedFloat.unpack Format.binary64
        (UnpackedFloat.pack Format.binary64 (.finite s m (k - 52) hm)) = _
      rw [pack_finite s hlog hk, unpack_packComponents hones hzeros]
      refine finite_congr (toNat_mantissa hlog) ?_
      rw [hexponent]
      simp only [Format.exponentBias]
      omega

/-! ## Integers -/

theorem Holds.round (s : Sign) {v : Nat} (hv : v ≠ 0) (hscale : n * 2 ^ k = v * 2 ^ 52) :
    Holds (UnpackedFloat.round Format.binary64 s n (k - 52)) (s.apply (nearest v)) := by
  have hn : n ≠ 0 := by
    rintro rfl
    rw [Nat.zero_mul] at hscale
    omega
  have hlog : n.log2 + k = v.log2 + 52 := by
    rw [← log2_mul_two_pow hn, hscale, log2_mul_two_pow hv]
  have hdigits : digits n = digits v := by
    rw [← digits_mul_two_pow hn k, hscale, digits_mul_two_pow hv]
  obtain ⟨m, c, hm, hround, hmlog, hmdigits⟩ := round_eq (e := k - 52) s hn (by omega)
  have hexponent : UnpackedFloat.finite s m (n.log2 + c + (k - 52) - 52) hm =
      .finite s m ((v.log2 + c : Nat) - 52) hm := finite_congr rfl (by omega)
  rw [hround, hexponent]
  refine .finite s hmlog ?_
  calc m * 2 ^ (v.log2 + c) = m * 2 ^ c * 2 ^ v.log2 := by ring
    _ = nearest v * 2 ^ 52 := by rw [hmdigits, hdigits, nearest_mul_two_pow]

/-- Rounding a scaled integer. -/
theorem Holds.normalize {i : Int} (hscale : i * 2 ^ k = v * 2 ^ 52) :
    Holds (UnpackedFloat.normalize Format.binary64 i (k - 52) .positive) (rounded v) := by
  have hk : (0 : Int) < 2 ^ k := Int.pow_pos (by decide)
  have hscaleAbs : i.natAbs * 2 ^ k = v.natAbs * 2 ^ 52 := by
    have habs := congrArg Int.natAbs hscale
    rwa [Int.natAbs_mul, Int.natAbs_mul, Int.natAbs_pow] at habs
  rcases lt_trichotomy i 0 with hneg | rfl | hpos
  · have hv : v < 0 := by
      have hprod := Int.mul_neg_of_neg_of_pos hneg hk
      omega
    rw [UnpackedFloat.normalize, Int.compare_eq_lt.2 hneg, rounded_of_neg hv,
      show (-i).toNat = i.natAbs by omega]
    exact Holds.round .negative (by omega) hscaleAbs
  · obtain rfl : v = 0 := by omega
    exact .zero .positive
  · have hv : 0 < v := by
      have hprod := Int.mul_pos hpos hk
      omega
    rw [UnpackedFloat.normalize, Int.compare_eq_gt.2 hpos, rounded_of_nonneg hv.le,
      show i.toNat = i.natAbs by omega]
    exact Holds.round .positive (by omega) hscaleAbs

theorem Holds.ofNat (n : Nat) : Holds (UnpackedFloat.ofNat Format.binary64 n) (rounded n) :=
  Holds.normalize (k := 52) rfl

theorem apply_neg (s : Sign) (a : Int) : (-s).apply a = -s.apply a := by
  cases s
  · exact (Int.neg_neg a).symm
  · rfl

theorem Holds.neg (h : Holds u v) : Holds u.neg (-v) := by
  cases h with
  | zero s => exact .zero (-s)
  | @finite s m k v hm hlog hvalue =>
      rw [← apply_neg]
      exact .finite (-s) hlog hvalue

theorem Holds.abs (h : Holds u v) : Holds u.abs v.natAbs := by
  cases h with
  | zero s => exact .zero .positive
  | @finite s m k v hm hlog hvalue =>
      rw [natAbs_apply]
      exact .finite .positive hlog hvalue

theorem apply_mul (s : Sign) (a b : Int) : s.apply a * b = s.apply (a * b) := by
  cases s
  · exact Int.neg_mul a b
  · rfl

theorem rounded_apply (s : Sign) (n : Nat) : rounded (s.apply n) = s.apply (nearest n) := by
  rcases Nat.eq_zero_or_pos n with rfl | hpos
  · cases s <;> rfl
  · cases s with
    | negative =>
        have hneg : -(n : Int) < 0 := by omega
        exact (rounded_of_neg hneg).trans (by rw [Int.natAbs_neg, Int.natAbs_natCast]; rfl)
    | positive => exact rounded_of_nonneg (Int.natCast_nonneg n)

/-- What a float holds needs no more than 53 bits. -/
theorem Holds.rounded_eq (h : Holds u v) : rounded v = v := by
  cases h with
  | zero s => rfl
  | @finite s m k v hm hlog hvalue =>
      have hv : v ≠ 0 := by
        rintro rfl
        have hpos : 0 < m * 2 ^ k := Nat.mul_pos hm (Nat.two_pow_pos k)
        omega
      have hplace : m.log2 + k = v.log2 + 52 := by
        rw [← log2_mul_two_pow hm.ne', hvalue, log2_mul_two_pow hv]
      have hdigits : digits v = m := by
        rw [← digits_mul_two_pow hv 52, ← hvalue, digits_mul_two_pow hm.ne',
          digits_of_le_log2 hlog.ge, hlog, Nat.sub_self, halfEven_zero]
      have hnearest : nearest v = v := by
        refine Nat.eq_of_mul_eq_mul_right (Nat.two_pow_pos 52) ?_
        rw [nearest_mul_two_pow, hdigits, ← hvalue, show v.log2 = k by omega]
      rw [rounded_apply, hnearest]

theorem decreaseExponent_eq {j : Nat} (h : j ≤ k) :
    decreaseExponent m (k - 52) (j - 52) = (m * 2 ^ (k - j), (j : Int) - 52) := by
  have hshift : ((k : Int) - 52 - (j - 52)).toNat = k - j := by omega
  rw [decreaseExponent, hshift, Nat.shiftLeft_eq]
  congr 1
  omega

/-- A signed number of small units, counted in units of one. -/
theorem apply_mul_two_pow {j : Nat} (s : Sign) (h : j ≤ k) (hvalue : m * 2 ^ k = n * 2 ^ 52) :
    s.apply (m * 2 ^ (k - j) : Nat) * 2 ^ j = s.apply n * 2 ^ 52 := by
  have hnat : m * 2 ^ (k - j) * 2 ^ j = n * 2 ^ 52 := by
    rw [Nat.mul_assoc, ← Nat.pow_add, Nat.sub_add_cancel h, hvalue]
  rw [apply_mul, apply_mul]
  exact congrArg s.apply (by exact_mod_cast hnat)

/-- A difference is taken exactly and then rounded. -/
theorem Holds.sub (hu : Holds u v) (hw : Holds w v') :
    Holds (UnpackedFloat.sub Format.binary64 u w) (rounded (v - v')) := by
  cases hu with
  | zero s =>
      cases hw with
      | zero s' =>
          rw [UnpackedFloat.sub]
          split
          · exact .zero s
          · exact .zero .positive
      | @finite s' m' k' n' hm' hlog' hvalue' =>
          have hneg : Holds (.finite (-s') m' (k' - 52) hm') ((-s').apply n') :=
            .finite (-s') hlog' hvalue'
          rw [Int.zero_sub, ← apply_neg, hneg.rounded_eq]
          exact hneg
  | @finite s m k n hm hlog hvalue =>
      cases hw with
      | zero s' =>
          have hsame : Holds (.finite s m (k - 52) hm) (s.apply n) := .finite s hlog hvalue
          rw [Int.sub_zero, hsame.rounded_eq]
          exact hsame
      | @finite s' m' k' n' hm' hlog' hvalue' =>
          have hmin : min ((k : Int) - 52) (k' - 52) = (min k k' : Nat) - 52 := by omega
          simp only [UnpackedFloat.sub, hmin, decreaseExponent_eq (Nat.min_le_left k k'),
            decreaseExponent_eq (Nat.min_le_right k k')]
          refine Holds.normalize ?_
          rw [Int.sub_mul, Int.sub_mul, apply_mul_two_pow s (Nat.min_le_left k k') hvalue,
            apply_mul_two_pow s' (Nat.min_le_right k k') hvalue']

/-! ## Order -/

/-- Two pairs in the same order compare alike. -/
theorem compare_congr {α β : Type} [LinearOrder α] [LinearOrder β] {a b : α} {c d : β}
    (hlt : a < b ↔ c < d) (heq : a = b ↔ c = d) : compare a b = compare c d := by
  rcases lt_trichotomy a b with h | h | h
  · rw [compare_lt_iff_lt.2 h, compare_lt_iff_lt.2 (hlt.1 h)]
  · rw [compare_eq_iff_eq.2 h, compare_eq_iff_eq.2 (heq.1 h)]
  · have hgt : d < c := (lt_trichotomy c d).resolve_left (fun hc => h.not_gt (hlt.2 hc))
      |>.resolve_left (fun hc => h.ne' (heq.2 hc))
    rw [compare_gt_iff_gt.2 h, compare_gt_iff_gt.2 hgt]

/-- Mantissas are all of one length, so the larger exponent decides. -/
theorem lt_of_exponent_lt {m' k' n' : Nat} (hlog : m.log2 = 52) (hlog' : m'.log2 = 52)
    (hvalue : m * 2 ^ k = n * 2 ^ 52) (hvalue' : m' * 2 ^ k' = n' * 2 ^ 52) (h : k < k') :
    n < n' := by
  refine Nat.lt_of_mul_lt_mul_right (a := 2 ^ 52) ?_
  calc n * 2 ^ 52 = m * 2 ^ k := hvalue.symm
    _ < 2 ^ 53 * 2 ^ k := Nat.mul_lt_mul_of_pos_right (bounds_of_log2_eq hlog).2 (Nat.two_pow_pos k)
    _ = 2 ^ 52 * 2 ^ (k + 1) := by ring
    _ ≤ m' * 2 ^ k' :=
        Nat.mul_le_mul (bounds_of_log2_eq hlog').1 (Nat.pow_le_pow_right (by decide) h)
    _ = n' * 2 ^ 52 := hvalue'

theorem compare_mantissas {m' k' n' : Nat} (hlog : m.log2 = 52) (hlog' : m'.log2 = 52)
    (hvalue : m * 2 ^ k = n * 2 ^ 52) (hvalue' : m' * 2 ^ k' = n' * 2 ^ 52) :
    (compare ((k : Int) - 52) (k' - 52)).then (compare m m') = compare n n' := by
  rcases lt_trichotomy k k' with hlt | rfl | hgt
  · rw [Int.compare_eq_lt.2 (by omega),
      Nat.compare_eq_lt.2 (lt_of_exponent_lt hlog hlog' hvalue hvalue' hlt)]
    rfl
  · have hpos : 0 < 2 ^ k := Nat.two_pow_pos k
    rw [Int.compare_eq_eq.2 rfl, Ordering.eq_then]
    refine compare_congr ?_ ?_
    · rw [← Nat.mul_lt_mul_right hpos, hvalue, hvalue', Nat.mul_lt_mul_right (Nat.two_pow_pos 52)]
    · rw [← Nat.mul_left_inj hpos.ne', hvalue, hvalue', Nat.mul_left_inj (Nat.two_pow_pos 52).ne']
  · rw [Int.compare_eq_gt.2 (by omega),
      Nat.compare_eq_gt.2 (lt_of_exponent_lt hlog' hlog hvalue' hvalue hgt)]
    rfl

theorem pos_of_value (hm : 0 < m) (hvalue : m * 2 ^ k = n * 2 ^ 52) : 0 < n := by
  have hpos : 0 < m * 2 ^ k := Nat.mul_pos hm (Nat.two_pow_pos k)
  omega

/-- Floats are in the order of the integers they hold. -/
theorem Holds.compare (hu : Holds u v) (hw : Holds w v') :
    u.compare w = some (compare v v') := by
  cases hu with
  | zero s =>
      cases hw with
      | zero s' => rfl
      | @finite s' m' k' n' hm' hlog' hvalue' =>
          have hn' := pos_of_value hm' hvalue'
          cases s' with
          | negative =>
              have hlt : -(n' : Int) < 0 := by omega
              exact congrArg some (Int.compare_eq_gt.2 hlt).symm
          | positive =>
              have hlt : 0 < (n' : Int) := by omega
              exact congrArg some (Int.compare_eq_lt.2 hlt).symm
  | @finite s m k n hm hlog hvalue =>
      have hn := pos_of_value hm hvalue
      cases hw with
      | zero s' =>
          cases s with
          | negative =>
              have hlt : -(n : Int) < 0 := by omega
              exact congrArg some (Int.compare_eq_lt.2 hlt).symm
          | positive =>
              have hlt : 0 < (n : Int) := by omega
              exact congrArg some (Int.compare_eq_gt.2 hlt).symm
      | @finite s' m' k' n' hm' hlog' hvalue' =>
          have hn' := pos_of_value hm' hvalue'
          have hsize := compare_mantissas hlog hlog' hvalue hvalue'
          cases s with
          | negative =>
              cases s' with
              | negative =>
                  have hlt : n' < n ↔ -(n : Int) < -(n' : Int) := by omega
                  have heq : n' = n ↔ -(n : Int) = -(n' : Int) := by omega
                  rw [UnpackedFloat.compare, hsize, Nat.compare_swap]
                  exact congrArg some (compare_congr hlt heq)
              | positive =>
                  have hlt : -(n : Int) < n' := by omega
                  exact congrArg some (Int.compare_eq_lt.2 hlt).symm
          | positive =>
              cases s' with
              | negative =>
                  have hlt : -(n' : Int) < n := by omega
                  exact congrArg some (Int.compare_eq_gt.2 hlt).symm
              | positive =>
                  have hlt : n < n' ↔ (n : Int) < n' := by omega
                  have heq : n = n' ↔ (n : Int) = n' := by omega
                  rw [UnpackedFloat.compare, hsize]
                  exact congrArg some (compare_congr hlt heq)

/-! ## Floats -/

variable {a : Int} {x y : Float}

theorem natAbs_le_of_fitsInt (h : Value.fitsInt a = true) : a.natAbs ≤ 2 ^ 63 := by
  rw [Value.fitsInt, Bool.and_eq_true, decide_eq_true_iff, decide_eq_true_iff] at h
  simp only [Value.minInt, Value.maxInt] at h
  omega

/-- An integer of 64 bits becomes the float that is nearest to it. -/
theorem holds_floatOfInt (h : Value.fitsInt a = true) :
    Holds (Value.floatOfInt a).toModel.unpack (rounded a) := by
  have hsize := natAbs_le_of_fitsInt h
  have hbound := natAbs_rounded_le a
  have hword : a.natAbs.toUInt64.toNat = a.natAbs := UInt64.toNat_ofNat_of_lt' (by
    have : UInt64.size = 2 ^ 64 := rfl
    omega)
  have hnatAbs : Holds a.natAbs.toUInt64.toFloat.toModel.unpack (rounded a).natAbs := by
    have hholds := Holds.ofNat a.natAbs.toUInt64.toNat
    rw [hword, rounded_of_nonneg (Int.natCast_nonneg _), Int.natAbs_natCast,
      ← natAbs_rounded] at hholds
    show Holds (Float.Model.pack (.ofNat .binary64 a.natAbs.toUInt64.toNat)).unpack _
    rw [hword, hholds.unpack_pack (by omega)]
    exact hholds
  rw [Value.floatOfInt]
  split
  case isTrue hneg =>
      have hvalue : rounded a = -((rounded a).natAbs : Int) := by
        rw [natAbs_rounded, rounded_of_neg hneg]
      show Holds (Float.Model.pack a.natAbs.toUInt64.toFloat.toModel.unpack.neg).unpack _
      rw [hvalue, hnatAbs.neg.unpack_pack (by omega)]
      exact hnatAbs.neg
  case isFalse hnonneg =>
      have hvalue : rounded a = ((rounded a).natAbs : Int) := by
        rw [natAbs_rounded, rounded_of_nonneg (Int.not_lt.1 hnonneg)]
      rw [hvalue]
      exact hnatAbs

theorem lt_iff_of_holds (hx : Holds x.toModel.unpack v) (hy : Holds y.toModel.unpack v') :
    x < y ↔ v < v' := by
  show decide (x.toModel.unpack.lt y.toModel.unpack = true) = true ↔ _
  rw [decide_eq_true_iff, UnpackedFloat.lt, hx.compare hy, beq_iff_eq, Option.some_inj,
    Int.compare_eq_lt]

theorem le_iff_of_holds (hx : Holds x.toModel.unpack v) (hy : Holds y.toModel.unpack v') :
    x ≤ y ↔ v ≤ v' := by
  show decide (x.toModel.unpack.le y.toModel.unpack = true) = true ↔ _
  rw [decide_eq_true_iff, UnpackedFloat.le, hx.compare hy, Option.any_some, Int.isLE_compare]

theorem unpack_tolerance :
    Expr.tolerance.toModel.unpack = .finite .positive 4503599627370496 (-104) (by decide) := rfl

/-- No integer but zero is within the tolerance. -/
theorem lt_tolerance_iff (h : Holds x.toModel.unpack n) : x < Expr.tolerance ↔ n = 0 := by
  show decide (x.toModel.unpack.lt Expr.tolerance.toModel.unpack = true) = true ↔ _
  rw [decide_eq_true_iff, UnpackedFloat.lt, unpack_tolerance, beq_iff_eq]
  generalize x.toModel.unpack = u at h ⊢
  generalize hd : (n : Int) = d at h
  cases h with
  | zero s =>
      rw [UnpackedFloat.compare]
      exact iff_of_true rfl (by omega)
  | @finite s m k v hm hlog hvalue =>
      have hpos := pos_of_value hm hvalue
      cases s with
      | negative =>
          have hneg : (n : Int) = -v := hd
          omega
      | positive =>
          have hsame : (n : Int) = v := hd
          -- the exponent alone decides
          have hexponent : compare ((k : Int) - 52) (-104) = .gt := Int.compare_eq_gt.2 (by omega)
          rw [UnpackedFloat.compare, hexponent, Ordering.gt_then]
          exact iff_of_false (by decide) (by omega)

/-- The test for equality finds out what integers two floats hold. -/
theorem abs_sub_lt_tolerance_iff (hx : Holds x.toModel.unpack v) (hy : Holds y.toModel.unpack v')
    (hv : v.natAbs ≤ 2 ^ 64) (hv' : v'.natAbs ≤ 2 ^ 64) :
    (x - y).abs < Expr.tolerance ↔ v = v' := by
  have hbound := natAbs_rounded_le (v - v')
  have hsub : Holds (x - y).toModel.unpack (rounded (v - v')) := by
    have hholds := hx.sub hy
    show Holds (Float.Model.pack (.sub .binary64 x.toModel.unpack y.toModel.unpack)).unpack _
    rw [hholds.unpack_pack (by omega)]
    exact hholds
  have habs : Holds (x - y).abs.toModel.unpack (rounded (v - v')).natAbs := by
    show Holds (Float.Model.pack (x - y).toModel.unpack.abs).unpack _
    rw [hsub.abs.unpack_pack (by omega)]
    exact hsub.abs
  rw [lt_tolerance_iff habs, Int.natAbs_eq_zero, rounded_eq_zero_iff, Int.sub_eq_zero]

end Binary64
end Statechart
