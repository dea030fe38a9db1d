import Mathlib
import Spreadsheet.Content
import Spreadsheet.Proofs.Evaluation.Numbers
import Spreadsheet.Proofs.Formula.Addresses

/-! # Numbers in cells and in formulas

What is typed into a cell is a number if the text as a whole denotes one that is finite. A formula has its numbers from
the longest numeral at each place, and may divide a text into several tokens. Both find the same numbers: a text is one
token that is a number exactly if it is a numeral from end to end (`Number.ofText?_iff_tokens`). -/

namespace Spreadsheet
open Text

/-! ### Numerals -/

namespace Numeral

/-- An exponent part as it is written: its digits are at least one, and may have a sign. -/
structure Scale.WellFormed (s : Scale) : Prop where
  marker : s.marker = 'e' ∨ s.marker = 'E'
  sign : ∀ c, s.sign = some c → c = '+' ∨ c = '-'
  digits_ne : s.digits ≠ []
  digits : ∀ c ∈ s.digits, c.isDigit = true

/-- A numeral as it is written: digits, on at least one side of the point if there is one. -/
structure WellFormed (n : Numeral) : Prop where
  whole : ∀ c ∈ n.whole, c.isDigit = true
  fraction : ∀ c ∈ n.fractionDigits, c.isDigit = true
  digits_ne : n.whole ≠ [] ∨ n.fractionDigits ≠ []
  scale : ∀ s, n.scale = some s → s.WellFormed

theorem hasDigits_iff {n : Numeral} : n.hasDigits = true ↔ n.whole ≠ [] ∨ n.fractionDigits ≠ [] := by
  simp [hasDigits]

theorem scanSign_append {sign : Option Char} {ds : List Char} (hsign : ∀ c, sign = some c → c = '+' ∨ c = '-')
    (hds : ∀ c ∈ ds, c.isDigit = true) : scanSign (sign.toList ++ ds) = (sign, ds) := by
  cases sign with
  | none =>
    unfold scanSign
    split
    · exact absurd (hds '+' (by simp_all)) (by decide)
    · exact absurd (hds '-' (by simp_all)) (by decide)
    · rfl
  | some c => rcases hsign c rfl with rfl | rfl <;> rfl

theorem Scale.WellFormed.scanScale_chars {s : Scale} (h : s.WellFormed) : scanScale s.chars = (some s, []) := by
  have htake : s.digits.takeWhile Char.isDigit = s.digits := List.takeWhile_eq_self_iff.mpr h.digits
  have hdrop : s.digits.dropWhile Char.isDigit = [] := List.dropWhile_eq_nil_iff.mpr h.digits
  rw [Scale.chars, scanScale, scanSign_append h.sign h.digits]
  simp only [htake, hdrop]
  rw [if_pos ⟨h.marker, h.digits_ne⟩]

/-- The characters of an exponent part, if there is one, start with neither a digit nor a point. -/
theorem ends_scale {n : Numeral} (h : ∀ s, n.scale = some s → s.WellFormed) :
    Ends (fun c => c.isDigit || c = '.') ((n.scale.map Scale.chars).getD []) := by
  cases hscale : n.scale with
  | none => nofun
  | some s =>
    rintro _ ⟨⟩
    rcases (h s hscale).marker with hm | hm <;> rw [hm] <;> rfl

theorem scanScale_scale {n : Numeral} (h : ∀ s, n.scale = some s → s.WellFormed) :
    scanScale ((n.scale.map Scale.chars).getD []) = (n.scale, []) := by
  cases hscale : n.scale with
  | none => rfl
  | some s => exact (h s hscale).scanScale_chars

/-- A numeral is scanned from end to end. -/
theorem WellFormed.scan_chars {n : Numeral} (h : n.WellFormed) : scan n.chars = (n, []) := by
  obtain ⟨whole, fraction, scale⟩ := n
  have hscale := scanScale_scale h.scale
  have hends := ends_scale h.scale
  have hwhole := h.whole
  have hfraction := h.fraction
  simp only at hscale hends hwhole
  generalize hwritten : (scale.map Scale.chars).getD [] = written at hscale hends
  have hdigits : Ends Char.isDigit written := hends.mono fun c hc => by simp [hc]
  cases fraction with
  | none =>
    have hpoint : scanFraction written = (none, written) := by
      unfold scanFraction
      split
      · exact absurd (hends '.' rfl) (by decide)
      · rfl
    simp only [chars, scan, Option.map_none, Option.getD_none, List.nil_append, takeWhile_append hwhole hdigits,
      dropWhile_append hwhole hdigits, hpoint, hscale, hwritten]
  | some ds =>
    have hpoint : Ends Char.isDigit ('.' :: (ds ++ written)) := by
      rintro c ⟨⟩
      decide
    simp only [fractionDigits, Option.getD_some] at hfraction
    simp only [chars, scan, Option.map_some, Option.getD_some, List.cons_append, takeWhile_append hwhole hpoint,
      dropWhile_append hwhole hpoint, scanFraction, takeWhile_append hfraction hdigits,
      dropWhile_append hfraction hdigits, hscale, hwritten]

/-- What is scanned is a numeral if it has digits. -/
theorem wellFormed_scan {cs : List Char} (h : (scan cs).1.hasDigits = true) : (scan cs).1.WellFormed where
  whole c hc := List.mem_takeWhile_imp hc
  fraction c hc := by
    simp only [scan, fractionDigits] at hc
    unfold scanFraction at hc
    split at hc
    · exact List.mem_takeWhile_imp hc
    · cases hc
  digits_ne := hasDigits_iff.mp h
  scale s hs := by
    simp only [scan] at hs
    unfold scanScale at hs
    split at hs
    · cases hs
    · next marker rest _ =>
      simp only at hs
      split at hs
      · next hm =>
        cases hs
        refine ⟨hm.1, fun c hc => ?_, hm.2, fun c hc => List.mem_takeWhile_imp hc⟩
        unfold scanSign at hc
        split at hc
        · cases hc
          exact .inl rfl
        · cases hc
          exact .inr rfl
        · cases hc
      · cases hs

/-- A numeral starts with a digit, or with a point and a digit. -/
theorem WellFormed.startsNumber_chars {n : Numeral} (h : n.WellFormed) : startsNumber n.chars = true := by
  obtain ⟨whole, fraction, scale⟩ := n
  cases whole with
  | cons c w =>
    have hc := h.whole c List.mem_cons_self
    unfold startsNumber
    split
    · next heq =>
      cases (List.cons.inj heq).1
      cases hc
    · next heq =>
      cases (List.cons.inj heq).1
      exact hc
    · next heq => cases heq
  | nil =>
    have hne := h.digits_ne.resolve_left (· rfl)
    cases fraction with
    | none => exact absurd rfl hne
    | some ds =>
      obtain ⟨d, ds, rfl⟩ := List.exists_cons_of_ne_nil (show ds ≠ [] from hne)
      exact h.fraction d List.mem_cons_self

/-- A text is read as a number if it is a numeral of one that is finite. -/
theorem readUnsigned_eq_some_iff {cs : List Char} {x : Number} :
    readUnsigned cs = some x ↔ ∃ n : Numeral, n.WellFormed ∧ n.chars = cs ∧ n.toNumber? = some x := by
  constructor
  · intro h
    unfold readUnsigned at h
    split at h
    · next n hscan =>
      have hdigits : n.hasDigits = true := by
        unfold toNumber? at h
        simp only [Bool.and_eq_true, Option.ite_none_right_eq_some] at h
        exact h.1.1
      have hn : (scan cs).1 = n := by rw [hscan]
      have happend := scan_eq_append cs
      rw [hscan, List.append_nil] at happend
      exact ⟨n, hn ▸ wellFormed_scan (hn ▸ hdigits), happend, h⟩
    · cases h
  · rintro ⟨n, hn, rfl, hx⟩
    rw [readUnsigned, hn.scan_chars]
    exact hx

end Numeral

/-! ### What texts denote -/

namespace Number

/-- What a text without a sign denotes to the usual reader of doubles: a numeral the number nearest to it, which is
    infinite if the numeral is out of range, and three words an infinite number or none. -/
inductive DenotesUnsigned : List Char → Number → Prop where
  | numeral {n : Numeral} (h : n.WellFormed) : DenotesUnsigned n.chars n.toDecimal.toNumber
  | infinity {w : String} (h : SameName w "inf" ∨ SameName w "infinity") :
    DenotesUnsigned w.toList (ofMagnitude infinityMagnitude)
  | nan {w : String} {x : Number} (h : SameName w "nan") (hx : x.isNaN = true) : DenotesUnsigned w.toList x

/-- What a text denotes, with a sign or without. -/
inductive Denotes : List Char → Number → Prop where
  | unsigned {cs : List Char} {x : Number} (h : DenotesUnsigned cs x) : Denotes cs x
  | plus {cs : List Char} {x : Number} (h : DenotesUnsigned cs x) : Denotes ('+' :: cs) x
  | minus {cs : List Char} {x : Number} (h : DenotesUnsigned cs x) : Denotes ('-' :: cs) (-x)

theorem isFinite_neg (x : Number) : (-x).isFinite = x.isFinite := by
  show x.neg.isFinite = x.isFinite
  rw [isFinite, isFinite, magnitude_neg]

theorem readUnsigned_eq_some_iff_denotes {cs : List Char} {x : Number} :
    Numeral.readUnsigned cs = some x ↔ DenotesUnsigned cs x ∧ x.isFinite = true := by
  rw [Numeral.readUnsigned_eq_some_iff]
  constructor
  · rintro ⟨n, hn, rfl, hx⟩
    unfold Numeral.toNumber? at hx
    simp only [Bool.and_eq_true, Option.ite_none_right_eq_some, Option.some.injEq] at hx
    obtain ⟨⟨-, hfinite⟩, rfl⟩ := hx
    exact ⟨.numeral hn, hfinite⟩
  · rintro ⟨h, hfinite⟩
    cases h with
    | @numeral n hn =>
      refine ⟨n, hn, rfl, ?_⟩
      rw [Numeral.toNumber?, Numeral.hasDigits_iff.mpr hn.digits_ne, hfinite]
      rfl
    | infinity => exact absurd hfinite (by decide)
    | nan _ hx => rw [isNaN_of_isFinite hfinite] at hx; cases hx

/-- What is read of a text, as it is typed into a cell, is the finite number that it denotes. -/
theorem read?_eq_some_iff {cs : List Char} {x : Number} : read? cs = some x ↔ Denotes cs x ∧ x.isFinite = true := by
  constructor
  · intro h
    unfold read? at h
    split at h
    · obtain ⟨y, hy, rfl⟩ := Option.map_eq_some_iff.mp h
      obtain ⟨hdenotes, hfinite⟩ := readUnsigned_eq_some_iff_denotes.mp hy
      exact ⟨.minus hdenotes, (isFinite_neg y).trans hfinite⟩
    · obtain ⟨hdenotes, hfinite⟩ := readUnsigned_eq_some_iff_denotes.mp h
      exact ⟨.plus hdenotes, hfinite⟩
    · obtain ⟨hdenotes, hfinite⟩ := readUnsigned_eq_some_iff_denotes.mp h
      exact ⟨.unsigned hdenotes, hfinite⟩
  · rintro ⟨h, hfinite⟩
    cases h with
    | unsigned h =>
      have hread := readUnsigned_eq_some_iff_denotes.mpr ⟨h, hfinite⟩
      obtain ⟨n, hn, rfl, -⟩ := Numeral.readUnsigned_eq_some_iff.mp hread
      have hstart := hn.startsNumber_chars
      unfold read?
      split
      · next heq =>
        rw [heq] at hstart
        cases hstart
      · next heq =>
        rw [heq] at hstart
        cases hstart
      · exact hread
    | plus h => exact readUnsigned_eq_some_iff_denotes.mpr ⟨h, hfinite⟩
    | @minus cs y h =>
      have hread := readUnsigned_eq_some_iff_denotes.mpr ⟨h, (isFinite_neg y).symm.trans hfinite⟩
      exact congrArg (Option.map neg) hread

end Number

/-! ### Texts that are one token -/

theorem tokens_eq_iff {text : String} {ks : List TokenKind} :
    (tokens text).map (List.map Token.kind) = .ok ks ↔ Divides ks text.toList := by
  rw [Except.map_eq_ok]
  constructor
  · rintro ⟨ts, hts, rfl⟩
    exact divides_of_tokensFrom hts
  · exact fun h => h.exists_tokensFrom 0

/-- A digit or a point opens a number or nothing. -/
theorem scan_eq_scanNumber {c : Char} {w : List Char} (hc : c.isDigit = true ∨ c = '.') :
    scan c w = if startsNumber (c :: w) then scanNumber (c :: w) else .error ⟨.invalidCharacter c, 0⟩ := by
  have hword : isWordChar c = true ∧ startsWord c = false := by
    rcases hc with hc | rfl
    · refine ⟨by simp [isWordChar, Char.isAlphanum, hc], ?_⟩
      by_contra hstarts
      rw [isDigit_of_startsWord (Bool.of_not_eq_false hstarts)] at hc
      cases hc
    · exact ⟨rfl, rfl⟩
  rw [scan_of_isWordChar hword.1, hword.2]
  rfl

/-- A text without white space is one number exactly if the longest numeral at its start is all of it. -/
theorem Divides.number_iff {c : Char} {w : List Char} (hc : c.isDigit = true ∨ c = '.')
    (hspace : ∀ d ∈ c :: w, isSpace d = false) {x : Number} :
    Divides [.number x, .stop] (c :: w) ↔ Numeral.readUnsigned (c :: w) = some x := by
  constructor
  · intro h
    generalize hks : [TokenKind.number x, .stop] = ks at h
    cases h with
    | blank hblank =>
      rw [hspace c List.mem_cons_self] at hblank
      cases hblank
    | @token _ _ t us _ hscan hrest =>
      obtain ⟨hkind, rfl⟩ := List.cons.inj hks
      obtain ⟨htext, -⟩ := scan_of hscan
      have hnil : t.rest = [] := by
        refine List.eq_nil_iff_forall_not_mem.mpr fun d hd => ?_
        have hblank := hrest.isSpace_of_stop d hd
        rw [hspace d (htext ▸ List.mem_append_right _ hd)] at hblank
        cases hblank
      rw [scan_eq_scanNumber hc] at hscan
      split at hscan
      · unfold scanNumber at hscan
        simp only at hscan
        split at hscan
        · next y hy =>
          cases hscan
          cases hkind
          rw [Numeral.readUnsigned, show Numeral.scan (c :: w) = (_, []) from Prod.ext rfl hnil]
          exact hy
        · cases hscan
      · cases hscan
  · intro h
    obtain ⟨n, hn, hchars, hx⟩ := Numeral.readUnsigned_eq_some_iff.mp h
    have hscan : scan c w = .ok ⟨.number x, n.chars, []⟩ := by
      rw [scan_eq_scanNumber hc, ← hchars, if_pos hn.startsNumber_chars, scanNumber, hn.scan_chars]
      simp only [hx]
    exact .token (hspace c List.mem_cons_self) hscan .stop

/-- A text of one number is a formula behind a `=`. -/
theorem Divides.parse_number {text : String} {x : Number} (h : Divides [.number x, .stop] text.toList) :
    Expr.parse ("=" ++ text) = .ok (.number x) := by
  obtain ⟨us, hus, hkinds⟩ := h.exists_tokensFrom 1
  have hreads : Expr.Reads (.number x) ([.number x] ++ [.stop]) [.stop] 0 := .of_primary (.literal rfl) rfl
  rw [Expr.parse_eq text.toList (by simp), hus]
  exact (formula_of_reading hreads.expression hkinds).1 (show 0 + 1 ≤ maxNesting by decide)

/-- A number that is typed without white space is what stands in the cell. -/
theorem Content.ofText_eq_number {text : String} (hspace : ∀ d ∈ text.toList, isSpace d = false) {x : Number}
    (h : Number.ofText? text = some x) : Content.ofText text = .literal (.number x) := by
  have hne : text.toList ≠ [] := by
    intro hnil
    rw [Number.ofText?, hnil] at h
    cases h
  have hends : ∀ cs : List Char, (∀ d ∈ cs, d ∈ text.toList) → Ends isSpace cs := fun cs hsub d hd =>
    hspace d (hsub d (List.mem_of_mem_head? hd))
  have htrim : trim text = text := by
    have htrims := trimChars_append (List.forall_mem_nil _) (List.forall_mem_nil _) hne (hends _ fun _ hd => hd)
      (hends _ fun _ hd => List.mem_reverse.mp hd)
    rw [List.nil_append, List.append_nil] at htrims
    rw [trim, htrims, String.ofList_toList]
  unfold Content.ofText
  split
  · next htext =>
    rw [Number.ofText?, htext] at h
    cases h
  · have hempty : text ≠ "" := fun heq => hne (by rw [heq]; rfl)
    simp only [Content.constantOf, htrim, if_neg hempty, h]

/-- A text that starts with a digit or a point and has no white space in it is read as a number exactly if it is divided
    into one token that is this number and the end. That is so if the text denotes the number and the number is finite.
    What is typed into a cell and what a formula writes is then this number. -/
theorem Number.ofText?_iff_tokens (text : String) {c : Char} {w : List Char} (htext : text.toList = c :: w)
    (hc : c.isDigit = true ∨ c = '.') (hspace : ∀ d ∈ text.toList, isSpace d = false) (x : Number) :
    (Number.ofText? text = some x ↔ (tokens text).map (List.map Token.kind) = .ok [.number x, .stop]) ∧
      (Number.ofText? text = some x ↔ Denotes text.toList x ∧ x.isFinite = true) ∧
      (Number.ofText? text = some x →
        Content.ofText text = .literal (.number x) ∧ Expr.parse ("=" ++ text) = .ok (.number x)) := by
  have hread : Number.ofText? text = Numeral.readUnsigned (c :: w) := by
    rw [Number.ofText?, htext]
    unfold read?
    split
    · next heq => cases heq; simp at hc
    · next heq => cases heq; simp at hc
    · rfl
  have htokens : Number.ofText? text = some x ↔ Divides [.number x, .stop] text.toList := by
    rw [hread, htext, Divides.number_iff hc (htext ▸ hspace)]
  exact ⟨htokens.trans tokens_eq_iff.symm, read?_eq_some_iff, fun h =>
    ⟨Content.ofText_eq_number hspace h, (htokens.mp h).parse_number⟩⟩

/-- `2.5e-3` is one number, and so is what is typed so. `2.5e` is none, since its `e` is a token of its own. -/
theorem Number.ofText?_iff_tokens_scale :
    (tokens "2.5e-3").map (List.map Token.kind) = .ok [.number ⟨0x3f647ae147ae147b⟩, .stop] ∧
      Denotes "2.5e-3".toList ⟨0x3f647ae147ae147b⟩ ∧
      ∀ x, (tokens "2.5e").map (List.map Token.kind) ≠ .ok [.number x, .stop] := by
  have hread : Number.ofText? "2.5e-3" = some ⟨0x3f647ae147ae147b⟩ := by decide +kernel
  have hnone : Number.ofText? "2.5e" = none := by decide +kernel
  have hnumber := ofText?_iff_tokens "2.5e-3" rfl (.inl rfl) (by simp [isSpace]) ⟨0x3f647ae147ae147b⟩
  refine ⟨hnumber.1.mp hread, (hnumber.2.1.mp hread).1, fun x htokens => ?_⟩
  have hread := (ofText?_iff_tokens "2.5e" rfl (.inl rfl) (by simp [isSpace]) x).1.mpr htokens
  rw [hnone] at hread
  cases hread

end Spreadsheet
