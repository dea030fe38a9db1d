import Spreadsheet.Formula.Parse
import Spreadsheet.Proofs.Formula.Tiling

/-! # Where texts are no formulas

The parser reports an error at the position of one of the tokens, or at that of the last one when it has run past them
(`PointsInto`). So for every text that is no formula the reported byte is one at which a character starts, or the
end. -/

namespace Spreadsheet

/-! ### Errors of the parser -/

/-- The error is reported at one of the tokens, or at `stop`. -/
def ParseError.PointsInto (stop : Nat) (ts : List Token) (e : ParseError) : Prop :=
  e.position ∈ stop :: ts.map Token.position

variable {stop : Nat} {ts us : List Token} {e : ParseError}

theorem ProperEnd.isSuffix (h : ProperEnd us ts) : us <:+ ts := by
  obtain ⟨taken, -, rfl⟩ := h
  exact List.suffix_append taken us

/-- An error in what is left of the tokens is one in the tokens. -/
theorem ParseError.PointsInto.mono (h : e.PointsInto stop us) (hsub : us <:+ ts) : e.PointsInto stop ts := by
  rcases List.mem_cons.mp h with hstop | hmem
  · exact List.mem_cons.mpr (.inl hstop)
  · exact List.mem_cons_of_mem _ ((hsub.map Token.position).subset hmem)

namespace Parse

theorem pointsInto_head (cause : ParseCause) (t : Token) (ts : List Token) :
    ParseError.PointsInto stop (t :: ts) ⟨cause, t.position⟩ :=
  List.mem_cons_of_mem _ List.mem_cons_self

/-- The parser points at the next token. -/
theorem pointsInto_position (cause : ParseCause) (hsub : us <:+ ts) :
    ParseError.PointsInto stop ts ⟨cause, position stop us⟩ := by
  refine ParseError.PointsInto.mono ?_ hsub
  cases us with
  | nil => exact List.mem_cons_self
  | cons t us => exact pointsInto_head ..

theorem rangeEnd_pointsInto {sheet : Option String} (h : rangeEnd stop sheet ts = .error e) : e.PointsInto stop ts := by
  unfold rangeEnd at h
  split at h
  · cases h
  · split at h
    · split at h <;> cases h
      exact pointsInto_head ..
    · cases h
      exact pointsInto_head ..
  · cases h
    exact pointsInto_position _ (List.suffix_refl _)

theorem reference_pointsInto {sheet : Option String} {a : Address} {t : Token}
    (h : reference stop sheet a t ts = .error e) : e.PointsInto stop ts := by
  unfold reference at h
  split at h
  · split at h <;> cases h
    next hend => exact (rangeEnd_pointsInto hend).mono (List.suffix_cons ..)
  · cases h

/-- Errors in `ts` are reported there, for the functions that descend to fewer tokens. -/
structure Points (stop : Nat) (ts : List Token) : Prop where
  expression : ∀ {depth : Nat} {e : ParseError}, expression stop depth ts = .error e → e.PointsInto stop ts
  operand : ∀ {depth : Nat} {level : Level} {e : ParseError}, operand stop depth level ts = .error e →
    e.PointsInto stop ts
  signed : ∀ {depth : Nat} {e : ParseError}, signed stop depth ts = .error e → e.PointsInto stop ts
  arguments : ∀ {depth : Nat} {e : ParseError}, arguments stop depth ts = .error e → e.PointsInto stop ts

section Step
variable {depth : Nat} (ih : ∀ us : List Token, us.length < ts.length → Points stop us)
include ih

theorem primary_pointsInto (h : primary stop depth ts = .error e) : e.PointsInto stop ts := by
  unfold primary at h
  split at h
  case h_1 =>
    cases h
    exact List.mem_cons_self
  case h_6 rest =>
    split at h
    · cases h
      next hinner => exact ((ih rest (by simp)).expression hinner).mono (List.suffix_cons ..)
    · next inner _ =>
      split at h
      · cases h
      · cases h
        exact pointsInto_position _ (inner.properEnd.isSuffix.trans (List.suffix_cons ..))
  case h_7 =>
    split at h
    · split at h
      · cases h
        next href =>
          exact (reference_pointsInto href).mono ((List.suffix_cons ..).trans (List.suffix_cons ..))
      · cases h
    · cases h
      exact pointsInto_head ..
  case h_8 => exact (reference_pointsInto h).mono (List.suffix_cons ..)
  case h_9 =>
    split at h
    · split at h
      · cases h
      · split at h
        · cases h
          next hargs =>
            refine ((ih _ ?_).arguments hargs).mono ((List.suffix_cons ..).trans (List.suffix_cons ..))
            simp only [List.length_cons]
            omega
        · cases h
    · cases h
      exact pointsInto_head ..
  case h_10 =>
    cases h
    exact pointsInto_head ..
  all_goals cases h

theorem power_pointsInto (h : power stop depth ts = .error e) : e.PointsInto stop ts := by
  rw [power] at h
  split at h
  · cases h
    next hprimary => exact primary_pointsInto ih hprimary
  · next base _ =>
    split at h
    · next rest hrest =>
      have hlt := base.properEnd.length_lt
      have hsub : rest <:+ ts := (hrest ▸ base.properEnd).tail.isSuffix
      rw [hrest, List.length_cons] at hlt
      split at h
      · cases h
        exact pointsInto_position _ hsub
      · split at h
        · cases h
          next hexponent => exact ((ih rest (by omega)).signed hexponent).mono hsub
        · cases h
    · cases h

theorem signed_pointsInto (h : signed stop depth ts = .error e) : e.PointsInto stop ts := by
  unfold signed at h
  split at h
  · exact power_pointsInto ih h
  · next t rest =>
    split at h
    · exact power_pointsInto ih h
    · split at h
      · cases h
        exact pointsInto_position _ (List.suffix_cons ..)
      · split at h
        · cases h
          next hsigned => exact ((ih rest (by simp)).signed hsigned).mono (List.suffix_cons ..)
        · cases h

/-- By induction on the tokens left. -/
theorem run_pointsInto {level : Level} {left : Parsed Expr ts} (h : run stop depth level left = .error e) :
    e.PointsInto stop ts := by
  induction hlength : left.rest.length using Nat.strongRecOn generalizing depth left with
  | ind length ihrun =>
    rw [run] at h
    split at h
    · cases h
    · next t rest hrest =>
      have hlt := left.properEnd.length_lt
      have hsub : rest <:+ ts := (hrest ▸ left.properEnd).tail.isSuffix
      rw [hrest, List.length_cons] at hlt hlength
      split at h
      · cases h
      · split at h
        · cases h
          exact pointsInto_position _ hsub
        · split at h
          · cases h
            next hoperand => exact ((ih rest (by omega)).operand hoperand).mono hsub
          · next right _ =>
            have hright := right.properEnd.length_lt
            exact ihrun right.rest.length (by omega) h rfl

theorem chain_pointsInto {level : Level}
    (hoperand : ∀ {e : ParseError}, operand stop depth level ts = .error e → e.PointsInto stop ts)
    (h : chain stop depth level ts = .error e) : e.PointsInto stop ts := by
  rw [chain] at h
  split at h
  · cases h
    exact hoperand ‹_›
  · exact run_pointsInto ih h

theorem operand_pointsInto (level : Level) {e : ParseError} (h : operand stop depth level ts = .error e) :
    e.PointsInto stop ts := by
  rw [operand] at h
  split at h
  · next tighter ht =>
    have := Level.rank_lt_of_tighter? ht
    exact chain_pointsInto ih (operand_pointsInto tighter) h
  · exact signed_pointsInto ih h
termination_by level.rank

theorem expression_pointsInto (h : expression stop depth ts = .error e) : e.PointsInto stop ts := by
  rw [expression] at h
  split at h
  · cases h
    exact pointsInto_position _ (List.suffix_refl _)
  · exact chain_pointsInto ih (operand_pointsInto ih .comparison) h

theorem arguments_pointsInto (h : arguments stop depth ts = .error e) : e.PointsInto stop ts := by
  rw [arguments] at h
  split at h
  · cases h
    next hfirst => exact expression_pointsInto ih hfirst
  · next first _ =>
    split at h
    · next after hafter =>
      have hlt := first.properEnd.length_lt
      have hsub : after <:+ ts := (hafter ▸ first.properEnd).tail.isSuffix
      rw [hafter, List.length_cons] at hlt
      split at h
      · cases h
        next hothers => exact ((ih after (by omega)).arguments hothers).mono hsub
      · cases h
    · cases h
    · cases h
      exact pointsInto_position _ first.properEnd.isSuffix

end Step

theorem points (ts : List Token) : Points stop ts := by
  induction hlength : ts.length using Nat.strongRecOn generalizing ts with
  | ind length ih =>
    have ih : ∀ us : List Token, us.length < ts.length → Points stop us := fun us hus => ih _ (by omega) us rfl
    exact ⟨expression_pointsInto ih, operand_pointsInto ih _, signed_pointsInto ih, arguments_pointsInto ih⟩

theorem formula_pointsInto (h : formula ts = .error e) : e.PointsInto (lastPosition ts) ts := by
  unfold formula at h
  dsimp only at h
  split at h
  · cases h
    next hexpression => exact (points ts).expression hexpression
  · next p _ =>
    split at h
    · cases h
    · cases h
      exact pointsInto_position _ p.properEnd.isSuffix

end Parse

/-! ### Errors in texts -/

open Text

theorem isBoundary_utf8ByteSize (text : String) : IsBoundary text text.utf8ByteSize :=
  LeftAt.isBoundary ⟨text.toList, (List.append_nil _).symm, (byteSize_toList text).symm⟩

/-- Of tokens that fill a text, the last one is at its end. -/
theorem ParseError.PointsInto.isBoundary {text : String} {start : Nat} {ls : List Lexed} {e : ParseError}
    (hls : Tiles text start text.utf8ByteSize ls)
    (h : e.PointsInto text.utf8ByteSize (ls.map Lexed.token ++ [⟨.stop, text.utf8ByteSize⟩])) :
    IsBoundary text e.position := by
  unfold PointsInto at h
  rw [List.map_append, List.map_map] at h
  rcases List.mem_cons.mp h with hstop | hmem
  · exact hstop ▸ isBoundary_utf8ByteSize text
  rcases List.mem_append.mp hmem with hmem | hmem
  · obtain ⟨l, hl, hposition⟩ := List.mem_map.mp hmem
    exact hposition ▸ (hls.scanned l hl).stands.isBoundary.1
  · exact List.mem_singleton.mp hmem ▸ isBoundary_utf8ByteSize text

theorem Expr.isBoundary_of_parse {text : String} {e : ParseError} (h : parse text = .error e) :
    IsBoundary text e.position := by
  unfold parse at h
  split at h
  · next cs htext =>
    have hlexes : Lexes text 1 (tokensFrom 1 0 cs) := lexes_tokensFrom ⟨['='], htext, rfl⟩
    split at h
    · next hts =>
      cases h
      rw [hts] at hlexes
      obtain ⟨ls, position, -, hbreaks⟩ := hlexes
      exact hbreaks.boundary
    · next ts hts =>
      rw [hts] at hlexes
      obtain ⟨ls, hls, rfl⟩ := hlexes
      have hpoints := Parse.formula_pointsInto h
      have hlast : Parse.lastPosition (ls.map Lexed.token ++ [⟨.stop, text.utf8ByteSize⟩]) = text.utf8ByteSize := by
        simp [Parse.lastPosition]
      exact (hlast ▸ hpoints).isBoundary hls
  · cases h
    exact LeftAt.isBoundary ⟨[], rfl, rfl⟩

/-- What a scan slices off the text stands where the scan starts, and characters that stand in a text start and end at
    boundaries. From wherever a text is scanned, its tokens fill it: each was scanned from the characters that stand at
    its position, positions increase, there is only white space between the tokens, and one at the end of the text, and
    only that one, marks the end. Otherwise the tokens fill it up to where a scan fails. The error of a text that is no
    formula is reported where a character starts or at the end. -/
theorem tokensAt_positions (text : String) :
    (∀ cs slice position, LeftAt text cs position → SlicesOff cs slice → StandsAt text slice position) ∧
      (∀ cs position, StandsAt text cs position →
        IsBoundary text position ∧ IsBoundary text (position + byteSize cs)) ∧
      (∀ start, IsBoundary text start → Lexes text start (tokensAt text start)) ∧
      ∀ e, Expr.parse text = .error e → IsBoundary text e.position ∧ e.position ≤ text.utf8ByteSize := by
  refine ⟨fun cs slice position hleft hslice => hslice.standsAt hleft, fun cs position => StandsAt.isBoundary,
    fun start => lexes_tokensAt, fun e he => ?_⟩
  have hboundary := Expr.isBoundary_of_parse he
  exact ⟨hboundary, String.Pos.Raw.IsValid.le_utf8ByteSize hboundary⟩

/-- In `="é" + 2` the `2` is sliced off at byte 8, and the tokens behind the `=` are at bytes 1, 6, 8 and 9. In `="é"+`
    an operand is missed at byte 6. -/
theorem tokensAt_positions_accent :
    let text := "=\"é\" + 2"
    (StandsAt text ['2'] 8 ∧ IsBoundary text 8 ∧ IsBoundary text (8 + 1)) ∧
      (tokensAt text 1).map (List.map Token.position) = .ok [1, 6, 8, 9] ∧ Lexes text 1 (tokensAt text 1) ∧
      Expr.parse "=\"é\"+" = .error ⟨.missingOperand .stop, 6⟩ ∧ IsBoundary "=\"é\"+" 6 ∧
      6 ≤ "=\"é\"+".utf8ByteSize := by
  intro text
  have hstands : StandsAt text ['2'] 8 :=
    (tokensAt_positions text).1 ['2'] ['2'] 8 ⟨"=\"é\" + ".toList, by decide, rfl⟩ (.number ['2'])
  have hleft : LeftAt text "\"é\" + 2".toList 1 := ⟨['='], by decide, rfl⟩
  have hparse : Expr.parse "=\"é\"+" = .error ⟨.missingOperand .stop, 6⟩ := by cbv
  exact ⟨⟨hstands, (tokensAt_positions text).2.1 _ _ hstands⟩, by cbv,
    (tokensAt_positions text).2.2.1 1 hleft.isBoundary, hparse, (tokensAt_positions _).2.2.2 _ hparse⟩

end Spreadsheet
