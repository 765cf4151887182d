import DailyBars.Binary64.Basic
import Mathlib

/-!
# Whole numbers to the nearest double

A volume is served as a double, and large volumes are rounded. `Binary64.ofInt_isNearest` says that
the double is the nearest one, a tie going to the even significand, for whole numbers of up to 64
bits.

**All finite doubles are multiples of powers of two by numbers of 53 bits** (`Binary64.IsDyadic`),
and nothing more about them is needed: such a value either is a multiple of the power that a number
is rounded to, or lies below all numbers that are rounded so.
-/

namespace DailyBars.Binary64

/-! ### Values -/

/-- The value of a finite double. -/
def value (x : Binary64) : ℚ :=
  (if x.isNegative then -1 else 1) * (x.significand * 2 ^ x.exponent)

/-- The double is finite and nearest to a number, and of two that are equally near it has the even
significand. -/
structure IsNearest (x : Binary64) (q : ℚ) : Prop where
  isFinite : x.isFinite = true
  le : ∀ y : Binary64, y.isFinite = true → |q - x.value| ≤ |q - y.value|
  even : ∀ y : Binary64, y.isFinite = true → |q - y.value| = |q - x.value| → y.value ≠ x.value →
    Even x.significand

/-- A multiple of a power of two by a number of 53 bits. -/
def IsDyadic (v : ℚ) : Prop :=
  ∃ (k e : ℤ), |k| < 2 ^ 53 ∧ v = k * 2 ^ e

theorem significand_lt (x : Binary64) : x.significand < 2 ^ 53 := by
  unfold significand fractionCount
  split <;> omega

theorem isDyadic_value (x : Binary64) : IsDyadic x.value := by
  have hlt := x.significand_lt
  rw [value]
  cases x.isNegative with
  | true =>
    refine ⟨-x.significand, x.exponent, by rw [abs_neg, Nat.abs_cast]; exact_mod_cast hlt, ?_⟩
    rw [if_pos rfl]
    push_cast
    ring
  | false =>
    refine ⟨x.significand, x.exponent, by rw [Nat.abs_cast]; exact_mod_cast hlt, ?_⟩
    rw [if_neg Bool.false_ne_true]
    push_cast
    ring

theorem IsDyadic.neg {v : ℚ} (h : IsDyadic v) : IsDyadic (-v) := by
  obtain ⟨k, e, hk, rfl⟩ := h
  exact ⟨-k, e, by rwa [abs_neg], by push_cast; ring⟩

/-! ### Rounding a quotient -/

/-- A rounded quotient is within half of the divisor, and even if it is half of the divisor away. -/
theorem roundDiv_spec {num den : ℕ} (hden : 0 < den) :
    2 * |(num : ℤ) - roundDiv num den * den| ≤ den ∧
      (2 * |(num : ℤ) - roundDiv num den * den| = den → Even (roundDiv num den)) := by
  have hdiv := Nat.div_add_mod num den
  have hmod := Nat.mod_lt num hden
  rw [roundDiv]
  generalize num / den = q at *
  generalize num % den = r at *
  have hdown : (num : ℤ) - (q : ℕ) * den = r := by
    rw [← hdiv]
    push_cast
    ring
  have hup : (num : ℤ) - ((q + 1 : ℕ) : ℤ) * den = r - den := by
    rw [← hdiv]
    push_cast
    ring
  have hr : |(r : ℤ)| = r := abs_of_nonneg (by omega)
  have hr' : |(r : ℤ) - den| = den - r := by
    rw [abs_of_nonpos (by omega)]
    omega
  split
  · rw [hdown, hr]
    exact ⟨by omega, fun h ↦ by omega⟩
  split
  · rw [hup, hr']
    exact ⟨by omega, fun h ↦ by omega⟩
  split
  · rename_i heven
    rw [hdown, hr]
    exact ⟨by omega, fun _ ↦ Nat.even_iff.2 heven⟩
  · rename_i hodd
    rw [hup, hr']
    exact ⟨by omega, fun _ ↦ Nat.even_iff.2 (by omega)⟩

/-- No other multiple of the divisor is nearer than the rounded quotient, and one that is as near
means that the quotient is even. -/
theorem abs_sub_roundDiv_le {num den : ℕ} (hden : 0 < den) {j : ℤ} (hj : j ≠ roundDiv num den) :
    |(num : ℤ) - roundDiv num den * den| ≤ |(num : ℤ) - j * den| ∧
      (|(num : ℤ) - j * den| = |(num : ℤ) - roundDiv num den * den| → Even (roundDiv num den)) := by
  obtain ⟨hhalf, heven⟩ := @roundDiv_spec num den hden
  have hgap : (den : ℤ) ≤ |(num : ℤ) - j * den| + |(num : ℤ) - roundDiv num den * den| := by
    have hne : 1 ≤ |(roundDiv num den : ℤ) - j| := Int.one_le_abs (sub_ne_zero.2 (Ne.symm hj))
    calc (den : ℤ) ≤ |(roundDiv num den : ℤ) - j| * den :=
          le_mul_of_one_le_left (by omega) hne
      _ = |((roundDiv num den : ℤ) - j) * den| := by rw [abs_mul, Nat.abs_cast]
      _ = |((num : ℤ) - j * den) - ((num : ℤ) - roundDiv num den * den)| := by
          congr 1
          ring
      _ ≤ _ := abs_sub _ _
  exact ⟨by omega, fun htie ↦ heven (by omega)⟩

/-- **Of all values of doubles, the rounded multiple of a power of two is nearest** to a number that
has at least 53 bits above that power. -/
theorem abs_sub_le_of_isDyadic {m e : ℕ} (hm : 2 ^ (52 + e) ≤ m) {v : ℚ} (hv : IsDyadic v) :
    |(m : ℚ) - roundDiv m (2 ^ e) * 2 ^ e| ≤ |m - v| ∧
      (|m - v| = |(m : ℚ) - roundDiv m (2 ^ e) * 2 ^ e| → v ≠ roundDiv m (2 ^ e) * 2 ^ e →
        Even (roundDiv m (2 ^ e))) := by
  have hcast : ∀ j : ℤ, |(m : ℚ) - j * 2 ^ e| = ((|(m : ℤ) - j * (2 ^ e : ℕ)| : ℤ) : ℚ) := by
    intro j
    push_cast
    rfl
  have hden : 0 < 2 ^ e := by positivity
  have hx := hcast (roundDiv m (2 ^ e))
  rw [Int.cast_natCast] at hx
  obtain ⟨k, f, hk, rfl⟩ := hv
  by_cases hf : (e : ℤ) ≤ f
  · -- The value is a multiple of the power itself.
    obtain ⟨n, hn⟩ := Int.eq_ofNat_of_zero_le (sub_nonneg.2 hf)
    have hv : (k : ℚ) * 2 ^ f = (k * 2 ^ n : ℤ) * 2 ^ e := by
      have hsum : f = n + e := by omega
      rw [hsum, zpow_add₀ two_ne_zero, zpow_natCast, zpow_natCast]
      push_cast
      ring
    rw [hv, hcast, hx]
    by_cases hj : k * 2 ^ n = roundDiv m (2 ^ e)
    · rw [hj]
      exact ⟨le_rfl, fun _ hne ↦ absurd (by rw [Int.cast_natCast]) hne⟩
    · obtain ⟨hle, heven⟩ := abs_sub_roundDiv_le hden hj
      exact ⟨by exact_mod_cast hle, fun htie _ ↦ heven (by exact_mod_cast htie)⟩
  · -- The value lies below the least number that is rounded so, which is a multiple of the power.
    have hlow : (k : ℚ) * 2 ^ f < 2 ^ 52 * 2 ^ e := by
      have habs : |(k : ℚ)| < 2 ^ 53 := by exact_mod_cast hk
      calc (k : ℚ) * 2 ^ f ≤ |(k : ℚ)| * 2 ^ f := by gcongr; exact le_abs_self _
        _ < 2 ^ 53 * 2 ^ f := by gcongr
        _ ≤ 2 ^ 53 * 2 ^ ((e : ℤ) - 1) := by gcongr; exacts [one_le_two, by omega]
        _ = 2 ^ 52 * 2 ^ e := by rw [zpow_sub₀ two_ne_zero, zpow_natCast]; ring
    have hleast : (2 : ℚ) ^ 52 * 2 ^ e ≤ m := by
      rw [← pow_add]
      exact_mod_cast hm
    have hnear : |(m : ℚ) - roundDiv m (2 ^ e) * 2 ^ e| ≤ m - 2 ^ 52 * 2 ^ e := by
      rw [← abs_of_nonneg (sub_nonneg.2 hleast)]
      have hpow := hcast (2 ^ 52)
      rw [Int.cast_pow, Int.cast_ofNat] at hpow
      rw [hpow, hx]
      by_cases hj : (2 ^ 52 : ℤ) = roundDiv m (2 ^ e)
      · rw [hj]
      · exact_mod_cast (abs_sub_roundDiv_le hden hj).1
    have hstrict : |(m : ℚ) - roundDiv m (2 ^ e) * 2 ^ e| < |(m : ℚ) - k * 2 ^ f| :=
      calc _ ≤ (m : ℚ) - 2 ^ 52 * 2 ^ e := hnear
        _ < m - k * 2 ^ f := sub_lt_sub_left hlow _
        _ ≤ _ := le_abs_self _
    exact ⟨hstrict.le, fun htie ↦ absurd htie hstrict.ne'⟩

/-! ### Words -/

theorem toNat_bits_ofMagnitude {negative : Bool} {magnitude : ℕ} (h : magnitude < signWeight) :
    (ofMagnitude negative magnitude).bits.toNat =
      (if negative then signWeight else 0) + magnitude := by
  rw [ofMagnitude, UInt64.toNat_ofNat']
  refine Nat.mod_eq_of_lt ?_
  unfold signWeight at *
  split <;> omega

theorem magnitude_ofMagnitude {negative : Bool} {magnitude : ℕ} (h : magnitude < signWeight) :
    (ofMagnitude negative magnitude).magnitude = magnitude := by
  rw [Binary64.magnitude, toNat_bits_ofMagnitude h]
  unfold signWeight at *
  split <;> omega

theorem isNegative_ofMagnitude {negative : Bool} {magnitude : ℕ} (h : magnitude < signWeight) :
    (ofMagnitude negative magnitude).isNegative = negative := by
  rw [isNegative, toNat_bits_ofMagnitude h]
  cases negative with
  | true => simp
  | false => simpa using h

/-- The magnitude of a significand of 53 bits and an exponent holds both, also where the significand
carries into the exponent. -/
theorem significand_mul_exponent {negative : Bool} {q : ℕ} {e : ℤ} (hlow : 2 ^ 52 ≤ q)
    (hhigh : q ≤ 2 ^ 53) (he : -1074 ≤ e) (he' : e ≤ 900) :
    let x := ofMagnitude negative (magnitudeOf q e)
    x.isFinite = true ∧ (x.significand : ℚ) * 2 ^ x.exponent = q * 2 ^ e ∧
      (Even q → Even x.significand) := by
  intro x
  have hmagnitude : x.magnitude = (e + 1074).toNat * 4503599627370496 + q := by
    refine magnitude_ofMagnitude ?_
    unfold magnitudeOf fractionCount signWeight
    omega
  have hnormal : ¬x.magnitude < 4503599627370496 := by omega
  have hfinite : x.isFinite = true := by
    unfold isFinite infiniteMagnitude fractionCount
    rw [decide_eq_true_eq]
    omega
  have hsignificand : x.significand = 4503599627370496 + x.magnitude % 4503599627370496 := by
    unfold significand fractionCount
    exact if_neg hnormal
  have hexponent : x.exponent = (x.magnitude / 4503599627370496 : ℕ) - 1075 := by
    unfold exponent fractionCount
    exact if_neg hnormal
  refine ⟨hfinite, ?_⟩
  -- Rounding up may give one bit more, and then the fraction is zero and the exponent one greater.
  obtain hsmall | hcarry : q < 2 ^ 53 ∨ q = 2 ^ 53 := by omega
  · have hs : x.significand = q := by omega
    have hx : x.exponent = e := by omega
    rw [hs, hx]
    exact ⟨rfl, id⟩
  · have hs : x.significand = 2 ^ 52 := by omega
    have hx : x.exponent = e + 1 := by omega
    rw [hs, hx, hcarry, zpow_add_one₀ two_ne_zero]
    exact ⟨by push_cast; ring, fun _ ↦ by decide⟩

/-! ### Whole numbers -/

/-- The exponent of a whole number leaves a significand of 53 bits. -/
theorem exponentOf_natural {m : ℕ} (hm : m ≠ 0) :
    Width.double.exponentOf m 1 = (m.log2 : ℤ) - 52 := by
  have hself := Nat.log2_self_le hm
  have hone : Nat.log2 1 = 0 := by decide
  have hwide : (if 0 ≤ (m.log2 : ℤ) - (0 : ℕ) - 53
      then decide (2 ^ 53 * 2 ^ ((m.log2 : ℤ) - (0 : ℕ) - 53).toNat ≤ m)
      else decide (2 ^ 53 ≤ m * 2 ^ (-((m.log2 : ℤ) - (0 : ℕ) - 53)).toNat)) = true := by
    split
    · rw [decide_eq_true_eq, ← pow_add]
      exact (Nat.pow_le_pow_right two_pos (by omega)).trans hself
    · rw [decide_eq_true_eq]
      calc 2 ^ 53 ≤ 2 ^ m.log2 * 2 ^ (-((m.log2 : ℤ) - (0 : ℕ) - 53)).toNat := by
            rw [← pow_add]
            exact Nat.pow_le_pow_right two_pos (by omega)
        _ ≤ _ := Nat.mul_le_mul_right _ hself
  unfold Width.exponentOf Width.double
  simp only [hone, Nat.shiftLeft_eq, Nat.one_mul, Nat.mul_one, hwide, Nat.cast_ofNat]
  rw [if_pos trivial]
  omega

theorem roundDiv_bounds (num den : ℕ) :
    num / den ≤ roundDiv num den ∧ roundDiv num den ≤ num / den + 1 := by
  rw [roundDiv]
  split
  · omega
  split
  · omega
  split <;> omega

theorem roundDiv_one (num : ℕ) : roundDiv num 1 = num := by
  rw [roundDiv]
  rw [Nat.div_one, Nat.mod_one, if_pos (by decide)]

/-- A whole number, rounded to a significand of 53 bits: no value of a double is nearer to it. -/
theorem roundScaled_natural {m : ℕ} (hm : m ≠ 0) :
    let q := roundScaled m 1 (m.log2 - 52)
    let x : ℚ := q * 2 ^ ((m.log2 : ℤ) - 52)
    (2 ^ 52 ≤ q ∧ q ≤ 2 ^ 53) ∧ ∀ v, IsDyadic v →
      |(m : ℚ) - x| ≤ |m - v| ∧ (|m - v| = |(m : ℚ) - x| → v ≠ x → Even q) := by
  have hself := Nat.log2_self_le hm
  have hlt := @Nat.lt_log2_self m
  by_cases hlarge : 52 ≤ m.log2
  · -- The number has more than 53 bits and loses the last `e` of them.
    obtain ⟨e, he⟩ := Nat.exists_eq_add_of_le hlarge
    have hexponent : (m.log2 : ℤ) - 52 = (e : ℕ) := by omega
    have hq : roundScaled m 1 (m.log2 - 52) = roundDiv m (2 ^ e) := by
      rw [hexponent, roundScaled, if_pos (Int.natCast_nonneg e), Int.toNat_natCast,
        Nat.one_shiftLeft]
    rw [he] at hself hlt
    have hlow : 2 ^ 52 ≤ m / 2 ^ e := by
      rw [Nat.le_div_iff_mul_le (by positivity), ← pow_add]
      exact hself
    have hhigh : m / 2 ^ e < 2 ^ 53 := by
      rw [Nat.div_lt_iff_lt_mul (by positivity), ← pow_add]
      refine hlt.trans_eq (congrArg _ ?_)
      omega
    obtain ⟨hbelow, habove⟩ := roundDiv_bounds m (2 ^ e)
    intro q x
    have hx : x = roundDiv m (2 ^ e) * 2 ^ e := by
      show (roundScaled m 1 (m.log2 - 52) : ℚ) * 2 ^ ((m.log2 : ℤ) - 52) = _
      rw [hq, hexponent, zpow_natCast]
    rw [show q = roundDiv m (2 ^ e) from hq, hx]
    exact ⟨⟨by omega, by omega⟩, fun v ↦ abs_sub_le_of_isDyadic hself⟩
  · -- The number fits and is only shifted, so it is a value itself and nothing else is as near.
    obtain ⟨e, he⟩ : ∃ e : ℕ, 52 = m.log2 + e ∧ 0 < e := ⟨52 - m.log2, by omega⟩
    have hexponent : (m.log2 : ℤ) - 52 = -(e : ℕ) := by omega
    have hq : roundScaled m 1 (m.log2 - 52) = m * 2 ^ e := by
      rw [hexponent, roundScaled, if_neg (by omega), neg_neg, Int.toNat_natCast, roundDiv_one,
        Nat.shiftLeft_eq]
    have hlow : 2 ^ 52 ≤ m * 2 ^ e :=
      calc 2 ^ 52 = 2 ^ m.log2 * 2 ^ e := by rw [← pow_add, ← he.1]
        _ ≤ _ := Nat.mul_le_mul_right _ hself
    have hhigh : m * 2 ^ e ≤ 2 ^ 53 :=
      calc _ ≤ 2 ^ (m.log2 + 1) * 2 ^ e := Nat.mul_le_mul_right _ hlt.le
        _ = 2 ^ 53 := by rw [← pow_add]; exact congrArg _ (by omega)
    intro q x
    have hx : x = m := by
      show (roundScaled m 1 (m.log2 - 52) : ℚ) * 2 ^ ((m.log2 : ℤ) - 52) = _
      rw [hq, hexponent, zpow_neg, zpow_natCast]
      push_cast
      exact mul_inv_cancel_right₀ (by positivity) _
    rw [show q = m * 2 ^ e from hq, hx, sub_self, abs_zero]
    refine ⟨⟨hlow, hhigh⟩, fun v _ ↦ ⟨abs_nonneg _, fun htie hne ↦ ?_⟩⟩
    exact absurd (sub_eq_zero.1 (abs_eq_zero.1 htie)).symm hne

/-- The value of the double of a whole number, sign apart. -/
theorem exists_value_ofInt {n : ℤ} (hn : n ≠ 0) (h : n.natAbs ≤ 2 ^ 63) :
    ∃ x : ℚ, (ofInt n).isFinite = true ∧ (ofInt n).value = (if n < 0 then -1 else 1) * x ∧
      ∀ v, IsDyadic v → |(n.natAbs : ℚ) - x| ≤ |n.natAbs - v| ∧
        (|n.natAbs - v| = |(n.natAbs : ℚ) - x| → v ≠ x → Even (ofInt n).significand) := by
  have hm : n.natAbs ≠ 0 := Int.natAbs_ne_zero.2 hn
  obtain ⟨⟨hlow, hhigh⟩, hnear⟩ := roundScaled_natural hm
  have hlog : n.natAbs.log2 < 64 := (Nat.log2_lt hm).2 (h.trans_lt (by decide))
  have hword : ofInt n = ofMagnitude (n < 0)
      (magnitudeOf (roundScaled n.natAbs 1 (n.natAbs.log2 - 52)) (n.natAbs.log2 - 52)) := by
    rw [ofInt, ofRatio, if_neg hm, exponentOf_natural hm]
    refine congrArg (ofMagnitude (n < 0)) (min_eq_left ?_)
    unfold magnitudeOf infiniteMagnitude fractionCount
    omega
  generalize roundScaled n.natAbs 1 (n.natAbs.log2 - 52) = q at *
  obtain ⟨hfinite, hvalue, heven⟩ := @significand_mul_exponent (n < 0) q (n.natAbs.log2 - 52) hlow
    hhigh (by omega) (by omega)
  have hnegative : (ofMagnitude (n < 0) (magnitudeOf q (n.natAbs.log2 - 52))).isNegative =
      decide (n < 0) := by
    refine isNegative_ofMagnitude ?_
    unfold magnitudeOf fractionCount signWeight
    omega
  refine ⟨q * 2 ^ ((n.natAbs.log2 : ℤ) - 52), by rw [hword]; exact hfinite, ?_, fun v hv ↦ ?_⟩
  · rw [value, hword, hnegative, hvalue]
    simp only [decide_eq_true_eq]
  · obtain ⟨hle, htie⟩ := hnear v hv
    rw [hword]
    exact ⟨hle, fun hequal hne ↦ heven (htie hequal hne)⟩

/-- **A whole number of up to 64 bits becomes the nearest double.** -/
theorem ofInt_isNearest {n : ℤ} (h : n.natAbs ≤ 2 ^ 63) : (ofInt n).IsNearest n := by
  by_cases hn : n = 0
  · subst hn
    have hvalue : (ofInt 0).value = 0 := by
      have hzero : (ofInt 0).significand = 0 := by decide
      rw [value, hzero]
      simp
    rw [Int.cast_zero]
    refine ⟨by decide, fun y _ ↦ by simp [hvalue], fun y _ htie hne ↦ ?_⟩
    rw [hvalue, sub_zero, abs_zero, zero_sub, abs_neg, abs_eq_zero] at htie
    exact absurd (htie.trans hvalue.symm) hne
  · obtain ⟨x, hfinite, hvalue, hnear⟩ := exists_value_ofInt hn h
    -- With both signs turned, a distance from `n` is one from its absolute value.
    obtain ⟨s, hs, hsn, hsx⟩ : ∃ s : ℚ, (s = 1 ∨ s = -1) ∧ (n : ℚ) = s * n.natAbs ∧
        (ofInt n).value = s * x := by
      rw [hvalue]
      by_cases hneg : n < 0
      · refine ⟨-1, Or.inr rfl, ?_, by rw [if_pos hneg]⟩
        rw [Nat.cast_natAbs, abs_of_neg hneg]
        push_cast
        ring
      · refine ⟨1, Or.inl rfl, ?_, by rw [if_neg hneg]⟩
        rw [Nat.cast_natAbs, abs_of_nonneg (not_lt.1 hneg), one_mul]
    have hone : s * s = 1 := by
      rcases hs with rfl | rfl <;> norm_num
    have hdistance : ∀ v : ℚ, |(n : ℚ) - v| = |(n.natAbs : ℚ) - s * v| := by
      intro v
      have habs : |s| = 1 := by
        rcases hs with rfl | rfl <;> norm_num
      calc |(n : ℚ) - v| = |s * (n.natAbs - s * v)| := by
            rw [mul_sub, ← mul_assoc, hone, one_mul, hsn]
        _ = _ := by rw [abs_mul, habs, one_mul]
    have hturned : s * (ofInt n).value = x := by
      rw [hsx, ← mul_assoc, hone, one_mul]
    have hdyadic : ∀ y : Binary64, IsDyadic (s * y.value) := by
      intro y
      rcases hs with rfl | rfl
      · rw [one_mul]
        exact y.isDyadic_value
      · rw [neg_one_mul]
        exact y.isDyadic_value.neg
    refine ⟨hfinite, fun y _ ↦ ?_, fun y _ htie hne ↦ ?_⟩
    · rw [hdistance, hdistance, hturned]
      exact (hnear _ (hdyadic y)).1
    · rw [hdistance, hdistance, hturned] at htie
      refine (hnear _ (hdyadic y)).2 htie fun hsame ↦ hne ?_
      rw [← one_mul y.value, ← hone, mul_assoc, hsame, hsx]

/-- **No other number is rounded to zero**: of all numbers of up to 64 bits, one is nearer. -/
theorem isZero_ofInt_iff {n : ℤ} (h : n.natAbs ≤ 2 ^ 63) : (ofInt n).isZero = true ↔ n = 0 := by
  constructor
  · intro hzero
    by_contra hn
    obtain ⟨x, -, hvalue, hnear⟩ := exists_value_ofInt hn h
    have hsignificand : (ofInt n).significand = 0 := by
      have hmagnitude : (ofInt n).magnitude = 0 := beq_iff_eq.1 hzero
      rw [significand, hmagnitude]
      rfl
    have hx : x = 0 := by
      rw [value, hsignificand, Nat.cast_zero, zero_mul, mul_zero] at hvalue
      refine (mul_eq_zero.1 hvalue.symm).resolve_left ?_
      split <;> norm_num
    have hone : IsDyadic 1 := ⟨1, 0, by norm_num, by norm_num⟩
    have hpos : (1 : ℚ) ≤ n.natAbs := by exact_mod_cast Int.natAbs_pos.2 hn
    obtain ⟨hle, -⟩ := hnear 1 hone
    rw [hx, sub_zero, abs_of_nonneg (by linarith), abs_of_nonneg (by linarith)] at hle
    linarith
  · rintro rfl
    decide

end DailyBars.Binary64
