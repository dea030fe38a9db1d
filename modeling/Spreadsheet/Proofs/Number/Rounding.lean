import Mathlib.Algebra.Order.Field.Power
import Mathlib.Data.Int.Log
import Mathlib.Data.Rat.Floor
import Mathlib.Tactic.FieldSimp
import Mathlib.Tactic.Positivity
import Spreadsheet.Number.Shortest

/-! # Rounding leaves alone what needs none

A quotient that is a binary64 number is rounded to that number (`nearest_of_eq`). So the exact decimal
of a number reads back to it, and with it the shortest one (`toNumber_shortestDecimal`). -/

namespace Spreadsheet.Number

/-! ### The exponent of a quotient -/

theorem cast_scaledNumerator (n : Nat) (q : Int) : (scaledNumerator n q : ℚ) = n * 2 ^ (-q).toNat := by
  simp [scaledNumerator, Nat.shiftLeft_eq]

theorem cast_scaledDenominator (d : Nat) (q : Int) : (scaledDenominator d q : ℚ) = d * 2 ^ q.toNat := by
  simp [scaledDenominator, Nat.shiftLeft_eq]

/-- Both sides scaled make up the quotient over a power of two. -/
theorem scaled_eq_iff {n d m : Nat} (hd : 0 < d) (q : Int) :
    scaledNumerator n q = m * scaledDenominator d q ↔ (n / d : ℚ) = m * 2 ^ q := by
  have hdq : (0 : ℚ) < d := by exact_mod_cast hd
  rw [← Nat.cast_inj (R := ℚ), Nat.cast_mul, cast_scaledNumerator, cast_scaledDenominator, div_eq_iff hdq.ne']
  rcases le_total 0 q with h | h
  · obtain ⟨k, rfl⟩ := Int.eq_ofNat_of_zero_le h
    simp [mul_comm, mul_left_comm]
  · obtain ⟨k, rfl⟩ : ∃ k : Nat, q = -(k : Int) := ⟨(-q).toNat, by omega⟩
    have hk : (2 : ℚ) ^ k ≠ 0 := by positivity
    simp only [neg_neg, Int.toNat_natCast, zpow_neg, zpow_natCast, Int.toNat_neg_natCast, pow_zero, mul_one]
    field_simp

theorem scaled_lt_iff {n d m : Nat} (hd : 0 < d) (q : Int) :
    scaledNumerator n q < m * scaledDenominator d q ↔ (n / d : ℚ) < m * 2 ^ q := by
  have hdq : (0 : ℚ) < d := by exact_mod_cast hd
  rw [← Nat.cast_lt (α := ℚ), Nat.cast_mul, cast_scaledNumerator, cast_scaledDenominator, div_lt_iff₀ hdq]
  rcases le_total 0 q with h | h
  · obtain ⟨k, rfl⟩ := Int.eq_ofNat_of_zero_le h
    simp [mul_comm, mul_left_comm]
  · obtain ⟨k, rfl⟩ : ∃ k : Nat, q = -(k : Int) := ⟨(-q).toNat, by omega⟩
    have hk : (0 : ℚ) < 2 ^ k := by positivity
    simp only [neg_neg, Int.toNat_natCast, zpow_neg, zpow_natCast, Int.toNat_neg_natCast, pow_zero, mul_one]
    rw [mul_right_comm, ← div_eq_mul_inv, lt_div_iff₀ hk]

/-- The logarithms of numerator and denominator give that of the quotient up to one. -/
theorem log_quotient {n d : Nat} (hn : 0 < n) (hd : 0 < d) :
    (Nat.log2 n : Int) - Nat.log2 d - 1 ≤ Int.log 2 (n / d : ℚ) ∧
      Int.log 2 (n / d : ℚ) ≤ (Nat.log2 n : Int) - Nat.log2 d := by
  have hdq : (0 : ℚ) < d := by exact_mod_cast hd
  have hv : (0 : ℚ) < n / d := div_pos (by exact_mod_cast hn) hdq
  have hn₁ : (2 : ℚ) ^ Nat.log2 n ≤ n := by exact_mod_cast Nat.log2_self_le hn.ne'
  have hn₂ : (n : ℚ) < 2 ^ (Nat.log2 n + 1) := by exact_mod_cast Nat.lt_log2_self
  have hd₁ : (2 : ℚ) ^ Nat.log2 d ≤ d := by exact_mod_cast Nat.log2_self_le hd.ne'
  have hd₂ : (d : ℚ) < 2 ^ (Nat.log2 d + 1) := by exact_mod_cast Nat.lt_log2_self
  constructor
  · refine (Int.zpow_le_iff_le_log (by decide) hv).mp ?_
    rw [le_div_iff₀ hdq]
    calc (2 : ℚ) ^ ((Nat.log2 n : Int) - Nat.log2 d - 1) * d
        ≤ 2 ^ ((Nat.log2 n : Int) - Nat.log2 d - 1) * 2 ^ (Nat.log2 d + 1) := by gcongr
      _ = 2 ^ Nat.log2 n := by
        rw [← zpow_natCast, ← zpow_add₀ two_ne_zero, ← zpow_natCast]
        congr 1
        push_cast
        omega
      _ ≤ n := hn₁
  · refine Int.lt_add_one_iff.mp ((Int.lt_zpow_iff_log_lt (by decide) hv).mp ?_)
    rw [div_lt_iff₀ hdq]
    calc (n : ℚ) < 2 ^ (Nat.log2 n + 1) := hn₂
      _ = 2 ^ ((Nat.log2 n : Int) - Nat.log2 d + 1) * 2 ^ Nat.log2 d := by
        rw [← zpow_natCast, ← zpow_natCast, ← zpow_add₀ two_ne_zero]
        congr 1
        push_cast
        omega
      _ ≤ 2 ^ ((Nat.log2 n : Int) - Nat.log2 d + 1) * d := by gcongr

theorem unitExponent_eq {n d : Nat} (hn : 0 < n) (hd : 0 < d) :
    unitExponent n d = Max.max (Int.log 2 (n / d : ℚ) - 52) (-1074) := by
  have hv : (0 : ℚ) < n / d := div_pos (by exact_mod_cast hn) (by exact_mod_cast hd)
  obtain ⟨hlow, hhigh⟩ := log_quotient hn hd
  have hguess (q : Int) : scaledNumerator n q < 2 * hiddenBit * scaledDenominator d q ↔
      Int.log 2 (n / d : ℚ) < 53 + q := by
    rw [scaled_lt_iff hd, ← Int.lt_zpow_iff_log_lt (by decide) hv, Nat.cast_ofNat, zpow_add₀ two_ne_zero]
    norm_num [hiddenBit]
  unfold unitExponent
  simp only [hguess]
  split <;> congr 1 <;> omega

/-! ### Exact quotients -/

theorem roundHalfEven_mul (m : Nat) {d : Nat} (hd : 0 < d) : roundHalfEven (m * d) d = m := by
  simp [roundHalfEven, hd]

/-- A quotient that is `m` at a proper exponent is rounded to the number with that significand. -/
theorem nearest_of_eq {n d m : Nat} {q : Int} (hd : 0 < d) (hm : 0 < m) (heq : (n / d : ℚ) = m * 2 ^ q)
    (hlt : m < 2 * hiddenBit) (hq : -1074 ≤ q) (hnormal : q = -1074 ∨ hiddenBit ≤ m) :
    nearest n d = ofMagnitude (Min.min ((q + 1074).toNat * hiddenBit + m) infinityMagnitude) := by
  have hmq : (0 : ℚ) < m := by exact_mod_cast hm
  have hv : (0 : ℚ) < n / d := by rw [heq]; positivity
  have hn : n ≠ 0 := by
    rintro rfl
    simp at hv
  have hlog : Int.log 2 (n / d : ℚ) < 53 + q := by
    rw [← Int.lt_zpow_iff_log_lt (by decide) hv, heq, Nat.cast_ofNat, zpow_add₀ two_ne_zero]
    have : (m : ℚ) < 2 ^ (53 : Int) := by exact_mod_cast hlt
    gcongr
  have hunit : unitExponent n d = q := by
    rw [unitExponent_eq (Nat.pos_of_ne_zero hn) hd]
    rcases hnormal with rfl | hbig
    · omega
    · have : 52 + q ≤ Int.log 2 (n / d : ℚ) := by
        rw [← Int.zpow_le_iff_le_log (by decide) hv, heq, Nat.cast_ofNat, zpow_add₀ two_ne_zero]
        have : (2 : ℚ) ^ (52 : Int) ≤ m := by exact_mod_cast hbig
        gcongr
      omega
  have hscaled := (scaled_eq_iff (m := m) hd q).mpr heq
  have hpos : 0 < scaledDenominator d q := by
    rw [scaledDenominator, Nat.shiftLeft_eq]
    positivity
  rw [nearest, if_neg hn]
  simp only [hunit, hscaled, roundHalfEven_mul m hpos]

/-! ### The parts of a number -/

variable {x : Number}

theorem ofMagnitude_magnitude (h : x.isNegative = false) : ofMagnitude x.magnitude = x := by
  have hlt : x.bits.toNat < signBit := by simpa [isNegative] using h
  rw [ofMagnitude, magnitude, Nat.mod_eq_of_lt hlt, UInt64.ofNat_toNat]

theorem significand_lt (x : Number) : x.significand < 2 * hiddenBit := by
  unfold significand
  split <;> simp only [hiddenBit] at * <;> omega

theorem exponent_ge (x : Number) : -1074 ≤ x.exponent := by
  unfold exponent
  split
  · exact Int.le_refl _
  · have := Nat.pos_of_ne_zero ‹_›
    omega

/-- Only at the least exponent is a significand without its hidden bit. -/
theorem exponent_or_hidden (x : Number) : x.exponent = -1074 ∨ hiddenBit ≤ x.significand := by
  unfold exponent significand
  split
  · exact .inl rfl
  · exact .inr (Nat.le_add_right _ _)

theorem magnitude_eq (x : Number) : (x.exponent + 1074).toNat * hiddenBit + x.significand = x.magnitude := by
  unfold exponent significand
  split <;> simp only [hiddenBit] at * <;> omega

theorem significand_pos (h : x.isZero = false) : 0 < x.significand := by
  have hne : x.magnitude ≠ 0 := by simpa [isZero] using h
  unfold significand
  split <;> simp only [hiddenBit] at * <;> omega

/-! ### Decimals that read back -/

/-- The number at a proper significand and exponent of its own. -/
theorem nearest_eq_self {n d : Nat} (hfinite : x.isFinite = true) (hneg : x.isNegative = false)
    (hzero : x.isZero = false) (hd : 0 < d) (heq : (n / d : ℚ) = x.significand * 2 ^ x.exponent) : nearest n d = x := by
  have hlt : x.magnitude < infinityMagnitude := by simpa [isFinite] using hfinite
  rw [nearest_of_eq hd (significand_pos hzero) heq x.significand_lt x.exponent_ge x.exponent_or_hidden,
    magnitude_eq, Nat.min_eq_left hlt.le, ofMagnitude_magnitude hneg]

theorem toNumber_exactDecimal (hfinite : x.isFinite = true) (hneg : x.isNegative = false) (hzero : x.isZero = false) :
    x.exactDecimal.toNumber = x := by
  have hpos := significand_pos hzero
  unfold exactDecimal
  split
  · next h =>
    obtain ⟨k, hk⟩ := Int.eq_ofNat_of_zero_le h
    have hdigits : x.significand <<< x.exponent.toNat ≠ 0 := by
      rw [Nat.shiftLeft_eq]
      positivity
    rw [Decimal.toNumber, if_neg (by simp only [hdigits, false_or]; omega), if_neg (by simp)]
    refine nearest_eq_self hfinite hneg hzero (by simp) ?_
    simp [hk, Nat.shiftLeft_eq]
  · next h =>
    obtain ⟨k, hk⟩ : ∃ k : Nat, x.exponent = -(k : Int) := ⟨(-x.exponent).toNat, by omega⟩
    have hdigits : x.significand * 5 ^ k ≠ 0 := by positivity
    have hlog : k ≤ Nat.log2 (x.significand * 5 ^ k) := by
      refine (Nat.le_log2 hdigits).mpr ?_
      calc 2 ^ k ≤ 5 ^ k := Nat.pow_le_pow_left (by decide) k
        _ ≤ x.significand * 5 ^ k := Nat.le_mul_of_pos_left _ hpos
    simp only [hk, neg_neg, Int.toNat_natCast, Nat.pow_eq]
    rw [Decimal.toNumber, if_neg (by simp only [hdigits, false_or]; omega), if_neg (by simp only; omega)]
    refine nearest_eq_self hfinite hneg hzero (by simp) ?_
    have h10 : (10 : ℚ) ^ k = 5 ^ k * 2 ^ k := by rw [← mul_pow]; norm_num
    simp [hk, h10]
    field_simp

/-- The shortest decimal reads back: a shorter one is taken only if it does, and the exact one does. -/
theorem toNumber_shortestDecimal (hfinite : x.isFinite = true) (hneg : x.isNegative = false)
    (hzero : x.isZero = false) : x.shortestDecimal.toNumber = x := by
  have hneighbour {place : Int} {d : Decimal} (h : x.neighbour? place = some d) : d.toNumber = x := by
    unfold neighbour? at h
    simp only at h
    split at h
    · next hlow => cases h; exact hlow.1
    · split at h
      · next hhigh => cases h; exact hhigh
      · cases h
  unfold shortestDecimal
  cases hfind : (List.range 20).findSome? fun i : Nat => x.neighbour? (x.placeAbove - (i : Int)) with
  | none => exact toNumber_exactDecimal hfinite hneg hzero
  | some d =>
    obtain ⟨i, -, hi⟩ := List.exists_of_findSome?_eq_some hfind
    exact hneighbour hi

/-! ### What reading gives -/

theorem isNegative_ofMagnitude {n : Nat} (h : n ≤ infinityMagnitude) : (ofMagnitude n).isNegative = false := by
  have hlt : n < signBit := Nat.lt_of_le_of_lt h (by decide)
  have hsize : n < 2 ^ 64 := Nat.lt_trans hlt (by decide)
  simp only [isNegative, ofMagnitude, UInt64.toNat_ofNat', Nat.mod_eq_of_lt hsize]
  simpa using hlt

theorem isNegative_nearest (n d : Nat) : (nearest n d).isNegative = false := by
  unfold nearest
  split
  · exact isNegative_ofMagnitude (Nat.zero_le _)
  · exact isNegative_ofMagnitude (Nat.min_le_right _ _)

theorem isNegative_toNumber (d : Decimal) : d.toNumber.isNegative = false := by
  unfold Decimal.toNumber
  split
  · exact isNegative_ofMagnitude (Nat.zero_le _)
  · split
    · exact isNegative_ofMagnitude (Nat.le_refl _)
    · exact isNegative_nearest _ _

end Spreadsheet.Number
