import Spreadsheet.Proofs.Number.Rounding

/-! # The text of a number is a numeral of it

A finite number without a sign is written as digits, with a point among them if need be, and no
exponent. Scanning takes all of them, and what they stand for rounds to the number
(`Number.exists_numeral`). -/

namespace Spreadsheet

namespace Text

/-- A text does not go on with a character of a class. -/
def Ends (p : Char → Bool) (cs : List Char) : Prop :=
  ∀ c, cs.head? = some c → p c = false

variable {p q : Char → Bool} {ds cs : List Char}

theorem Ends.mono (h : Ends q cs) (hpq : ∀ c, p c = true → q c = true) : Ends p cs := by
  intro c hc
  have := h c hc
  cases hp : p c with
  | false => rfl
  | true => rw [hpq c hp] at this; cases this

theorem Ends.takeWhile (h : Ends p cs) : cs.takeWhile p = [] := by
  cases cs with
  | nil => rfl
  | cons c cs => simp [h c rfl]

theorem Ends.dropWhile (h : Ends p cs) : cs.dropWhile p = cs := by
  cases cs with
  | nil => rfl
  | cons c cs => simp [h c rfl]

theorem takeWhile_append (hds : ∀ c ∈ ds, p c = true) (h : Ends p cs) : (ds ++ cs).takeWhile p = ds := by
  rw [List.takeWhile_append_of_pos hds, h.takeWhile, List.append_nil]

theorem dropWhile_append (hds : ∀ c ∈ ds, p c = true) (h : Ends p cs) : (ds ++ cs).dropWhile p = cs := by
  rw [List.dropWhile_append_of_pos hds, h.dropWhile]

end Text

namespace Numeral
open Text

/-- The characters of numerals without a sign. -/
def continues (c : Char) : Bool :=
  c.isDigit || c = '.' || c = 'e' || c = 'E'

/-- A numeral of digits alone, with a point after the first of them at the earliest. -/
structure Plain (n : Numeral) : Prop where
  whole_ne : n.whole ≠ []
  whole : ∀ c ∈ n.whole, c.isDigit = true
  fraction : ∀ c ∈ n.fractionDigits, c.isDigit = true
  scale : n.scale = none

theorem scanScale_of_ends {cs : List Char} (h : Ends continues cs) : scanScale cs = (none, cs) := by
  cases cs with
  | nil => rfl
  | cons c cs =>
    have hc : c ≠ 'e' ∧ c ≠ 'E' := by
      have := h c rfl
      simp only [continues, Bool.or_eq_false_iff, decide_eq_false_iff_not] at this
      exact ⟨this.1.2, this.2⟩
    simp [scanScale, hc]

theorem scanFraction_of_ends {cs : List Char} (h : Ends continues cs) : scanFraction cs = (none, cs) := by
  unfold scanFraction
  split
  · exact absurd (h '.' rfl) (by decide)
  · rfl

theorem scan_chars {n : Numeral} (hn : n.Plain) {cs : List Char} (h : Ends continues cs) :
    scan (n.chars ++ cs) = (n, cs) := by
  obtain ⟨whole, fraction, scale⟩ := n
  obtain ⟨-, hwhole, hfraction, hscale⟩ := hn
  have hdigits : Ends Char.isDigit cs := h.mono fun c hc => by simp [continues, hc]
  simp only at hwhole hscale
  subst hscale
  cases fraction with
  | none =>
    simp only [scan, chars, Option.map_none, Option.getD_none, List.append_nil, takeWhile_append hwhole hdigits,
      dropWhile_append hwhole hdigits, scanFraction_of_ends h, scanScale_of_ends h]
  | some ds =>
    have hpoint : Ends Char.isDigit ('.' :: (ds ++ cs)) := by
      rintro c ⟨⟩
      decide
    simp only [fractionDigits, Option.getD_some] at hfraction
    simp only [scan, chars, Option.map_some, Option.getD_some, Option.map_none, Option.getD_none, List.append_nil,
      List.append_assoc, List.cons_append, takeWhile_append hwhole hpoint, dropWhile_append hwhole hpoint,
      scanFraction, takeWhile_append hfraction hdigits, dropWhile_append hfraction hdigits, scanScale_of_ends h]

end Numeral

namespace Decimal
open Numeral

theorem toNumber_of_le {digits k : Nat} (hdigits : 0 < digits) (hk : k ≤ 400) :
    (Decimal.mk digits k).toNumber = Number.nearest (digits * 10 ^ k) 1 := by
  rw [toNumber, if_neg (by simp only; omega), if_neg (by simp only; omega)]
  simp

/-- Moving zeros from the exponent to the digits does not change the number. -/
theorem toNumber_shift {digits k : Nat} (h : (Decimal.mk digits k).toNumber.isFinite = true) :
    (Decimal.mk (10 ^ k * digits) 0).toNumber = (Decimal.mk digits k).toNumber := by
  rcases Nat.eq_zero_or_pos digits with rfl | hdigits
  · simp [toNumber]
  · have hk : k ≤ 400 := by
      by_contra hk
      rw [toNumber, if_neg (by simp only; omega), if_pos (by simp only; omega)] at h
      exact absurd h (by decide)
    have hshift := toNumber_of_le (k := 0) (Nat.mul_pos (Nat.pow_pos (by decide) : 0 < 10 ^ k) hdigits) (by decide)
    rw [toNumber_of_le hdigits hk, Nat.mul_comm digits]
    simpa using hshift

/-- The positional notation of a decimal is a numeral of its number. -/
theorem exists_numeral {d : Decimal} (h : d.toNumber.isFinite = true) :
    ∃ n : Numeral, n.chars = d.positional ∧ n.Plain ∧ n.toDecimal.toNumber = d.toNumber := by
  have hdigit : ∀ c ∈ Nat.toDigits 10 d.digits, c.isDigit = true := fun c hc =>
    Nat.isDigit_of_mem_toDigits (by decide) (by decide) hc
  unfold positional
  split
  · next hexp =>
    obtain ⟨k, hk⟩ := Int.eq_ofNat_of_zero_le hexp
    refine ⟨⟨Nat.toDigits 10 d.digits ++ List.replicate d.exponent.toNat '0', none, none⟩, by simp [chars], ?_, ?_⟩
    · refine ⟨by simp [Nat.toDigits_ne_nil], fun c hc => ?_, by simp [fractionDigits], rfl⟩
      rcases List.mem_append.mp hc with hc | hc
      · exact hdigit c hc
      · rw [List.eq_of_mem_replicate hc]
        rfl
    · have hdecimal : d = ⟨d.digits, k⟩ := by rw [← hk]
      rw [hdecimal] at h
      rw [hdecimal, ← toNumber_shift h]
      congr 1
      simp [toDecimal, digitsValue_eq_ofDigitChars, fractionDigits, Nat.ofDigitChars_append,
        Nat.ofDigitChars_replicate_zero, Nat.ofDigitChars_ten_toDigits]
  · next hexp =>
    obtain ⟨p, hp⟩ : ∃ p : Nat, d.exponent = -(p : Int) := ⟨(-d.exponent).toNat, by omega⟩
    simp only [hp, neg_neg, Int.toNat_natCast]
    generalize hpadded : List.replicate (p + 1 - (Nat.toDigits 10 d.digits).length) '0' ++ Nat.toDigits 10 d.digits =
      padded
    have hlength : p + 1 ≤ padded.length := by
      rw [← hpadded, List.length_append, List.length_replicate]
      omega
    have hpadded_digit : ∀ c ∈ padded, c.isDigit = true := by
      intro c hc
      rw [← hpadded] at hc
      rcases List.mem_append.mp hc with hc | hc
      · rw [List.eq_of_mem_replicate hc]
        rfl
      · exact hdigit c hc
    refine ⟨⟨padded.take (padded.length - p), some (padded.drop (padded.length - p)), none⟩, by simp [chars],
      ⟨fun hnil => ?_, fun c hc => hpadded_digit c (List.mem_of_mem_take hc),
        fun c hc => hpadded_digit c (List.mem_of_mem_drop hc), rfl⟩, ?_⟩
    · have := congrArg List.length hnil
      simp only [List.length_take, List.length_nil] at this
      omega
    · congr 1
      simp only [toDecimal, digitsValue_eq_ofDigitChars, fractionDigits, Option.getD_some, List.take_append_drop]
      rw [Decimal.mk.injEq]
      refine ⟨?_, ?_⟩
      · rw [← hpadded, Nat.ofDigitChars_append, Nat.ofDigitChars_replicate_zero, Nat.mul_zero,
          Nat.ofDigitChars_ten_toDigits]
      · rw [hp]
        simp only [Option.map_none, Option.getD_none, List.length_drop]
        omega

end Decimal

namespace Number
open Numeral

/-- A finite number without a sign is written as a plain numeral that reads back to it. -/
theorem exists_numeral {x : Number} (hfinite : x.isFinite = true) (hneg : x.isNegative = false) :
    ∃ n : Numeral, x.toText.toList = n.chars ∧ n.Plain ∧ n.toNumber? = some x := by
  have hnan : x.isNaN = false := by
    simp only [isFinite, isNaN, decide_eq_true_eq, decide_eq_false_iff_not] at hfinite ⊢
    omega
  have hself := ofMagnitude_magnitude hneg
  cases hzero : x.isZero with
  | true =>
    have hx : x = ofMagnitude 0 := by rw [← hself, show x.magnitude = 0 by simpa [isZero] using hzero]
    refine ⟨⟨['0'], none, none⟩, ?_, ⟨by simp, by simp, by simp [fractionDigits], rfl⟩, ?_⟩
    · simp [toText, hnan, hzero, chars]
    · rw [hx]
      decide +kernel
  | false =>
    have hshortest := toNumber_shortestDecimal hfinite hneg hzero
    obtain ⟨n, hchars, hplain, hnumber⟩ := Decimal.exists_numeral (d := x.shortestDecimal) (by rwa [hshortest])
    rw [hshortest] at hnumber
    refine ⟨n, ?_, hplain, ?_⟩
    · simp [toText, hnan, hzero, hfinite, hneg, abs, hself, hchars]
    · have hdigits : n.hasDigits = true := by simp [hasDigits, hplain.whole_ne]
      simp [toNumber?, hdigits, hnumber, hfinite]

end Number

end Spreadsheet
