import Spreadsheet.Engine.Store

/-! # Cells after writes

Every write concerns one location; the other cells are what they were. A pass does not write but gives
formulas new values (`Revalued`). -/

namespace Spreadsheet.Store
variable {s t u : Store} {l m : Location}

theorem get?_insert {c : Cell} : get? ⟨s.cells.insert l c⟩ m = if m = l then some c else s.get? m := by
  simp only [get?, Std.ExtTreeMap.getElem?_insert, Std.compare_eq_iff_eq, eq_comm (a := l)]

theorem get?_setConstant {content : Content} :
    (s.setConstant l content).get? m =
      if m = l then some ⟨.constant content, content.constantValue⟩ else s.get? m :=
  get?_insert

theorem get?_setFormula {text : String} {expr : Expr} {missing : List String} :
    (s.setFormula l text expr missing).get? m =
      if m = l then some ⟨.formula text expr missing, s.value l⟩ else s.get? m :=
  get?_insert

theorem get?_setInvalid {text : String} {error : ParseError} :
    (s.setInvalid l text error).get? m =
      if m = l then some ⟨.invalid text error, .error error.errorValue⟩ else s.get? m :=
  get?_insert

theorem get?_setValue {v : Value} :
    (s.setValue l v).get? m = if m = l then some { (s.get? l).getD .blank with value := v } else s.get? m :=
  get?_insert

theorem get?_setMissing {missing old : List String} {text : String} {expr : Expr} {v : Value}
    (h : s.get? l = some ⟨.formula text expr old, v⟩) :
    (s.setMissing l missing).get? m = if m = l then some ⟨.formula text expr missing, v⟩ else s.get? m := by
  simp only [get?, setMissing, Std.ExtTreeMap.getElem?_modify, Std.compare_eq_iff_eq, eq_comm (a := l)]
  split
  · rename_i hm
    subst hm
    rw [show s.cells[m]? = some _ from h]
    rfl
  · rfl

theorem value_setValue {v : Value} : (s.setValue l v).value m = if m = l then v else s.value m := by
  simp only [value, get?_setValue]
  split <;> rfl

theorem value_setMissing {missing : List String} : (s.setMissing l missing).value = s.value := by
  funext m
  simp only [value, get?, setMissing, Std.ExtTreeMap.getElem?_modify, Std.compare_eq_iff_eq]
  split
  · rename_i hm
    subst hm
    cases s.cells[l]? with
    | none => rfl
    | some c => rcases c with ⟨_ | _ | _, v⟩ <;> rfl
  · rfl

theorem expr?_eq_some {expr : Expr} :
    s.expr? l = some expr ↔ ∃ text missing v, s.get? l = some ⟨.formula text expr missing, v⟩ := by
  rw [expr?, Option.bind_eq_some_iff]
  constructor
  · rintro ⟨⟨source, v⟩, hget, hexpr⟩
    cases source <;> cases hexpr
    exact ⟨_, _, _, hget⟩
  · rintro ⟨text, missing, v, hget⟩
    exact ⟨_, hget, rfl⟩

theorem mem_locationsWhere {p : Cell → Bool} : l ∈ s.locationsWhere p ↔ ∃ c, s.get? l = some c ∧ p c = true := by
  simp only [locationsWhere, List.mem_map, List.mem_filter, Prod.exists]
  constructor
  · rintro ⟨m, c, ⟨hmem, hp⟩, rfl⟩
    exact ⟨c, Std.ExtTreeMap.mem_toList_iff_getElem?_eq_some.mp hmem, hp⟩
  · rintro ⟨c, hget, hp⟩
    exact ⟨l, c, ⟨Std.ExtTreeMap.mem_toList_iff_getElem?_eq_some.mpr hget, hp⟩, rfl⟩

/-- The cells are the same, and so are the values but for those of formulas that satisfy `p`. -/
structure Revalued (s t : Store) (p : Location → Prop) : Prop where
  source : ∀ l, (t.get? l).map Cell.source = (s.get? l).map Cell.source
  value : ∀ l, ¬((s.expr? l).isSome ∧ p l) → t.value l = s.value l

namespace Revalued
variable {p q : Location → Prop}

theorem refl : s.Revalued s p where
  source _ := rfl
  value _ _ := rfl

/-- The same locations have cells. -/
theorem cases (h : s.Revalued t p) (l : Location) :
    t.get? l = none ∧ s.get? l = none ∨ ∃ source v w, t.get? l = some ⟨source, v⟩ ∧ s.get? l = some ⟨source, w⟩ := by
  have hsource := h.source l
  cases ht : t.get? l with
  | none =>
    rw [ht, Option.map_none, eq_comm, Option.map_eq_none_iff] at hsource
    exact Or.inl ⟨rfl, hsource⟩
  | some c =>
    rw [ht, Option.map_some, eq_comm, Option.map_eq_some_iff] at hsource
    obtain ⟨c', hs, heq⟩ := hsource
    exact Or.inr ⟨c.source, c.value, c'.value, rfl, heq ▸ hs⟩

theorem isSome_get? (h : s.Revalued t p) (l : Location) : (t.get? l).isSome = (s.get? l).isSome := by
  have hsource := congrArg Option.isSome (h.source l)
  rwa [Option.isSome_map, Option.isSome_map] at hsource

theorem expr? (h : s.Revalued t p) (l : Location) : t.expr? l = s.expr? l := by
  rcases h.cases l with ⟨ht, hs⟩ | ⟨source, v, w, ht, hs⟩
  · rw [Store.expr?, Store.expr?, ht, hs]
  · rw [Store.expr?, Store.expr?, ht, hs]
    rfl

theorem symm (h : s.Revalued t p) : t.Revalued s p where
  source l := (h.source l).symm
  value l hl := (h.value l fun hp => hl ⟨(h.expr? l).symm ▸ hp.1, hp.2⟩).symm

theorem trans (h : s.Revalued t p) (h' : t.Revalued u q) : s.Revalued u fun l => p l ∨ q l where
  source l := (h'.source l).trans (h.source l)
  value l hl := by
    rw [h'.value l fun hq => hl ⟨h.expr? l ▸ hq.1, Or.inr hq.2⟩, h.value l fun hp => hl ⟨hp.1, Or.inl hp.2⟩]

theorem mono (h : s.Revalued t p) (hpq : ∀ l, p l → q l) : s.Revalued t q where
  source := h.source
  value l hl := h.value l fun hp => hl ⟨hp.1, hpq l hp.2⟩

theorem get?_eq (h : s.Revalued t p) (hl : ¬((s.expr? l).isSome ∧ p l)) : t.get? l = s.get? l := by
  have hvalue := h.value l hl
  rcases h.cases l with ⟨ht, hs⟩ | ⟨source, v, w, ht, hs⟩
  · rw [ht, hs]
  · simp only [Store.value, ht, hs, Option.map_some, Option.getD_some] at hvalue
    rw [ht, hs, hvalue]

/-- A cell was there before with the same source, and without a formula it had the same value. -/
theorem exists_get? {c : Cell} (h : s.Revalued t p) (hc : t.get? l = some c) :
    ∃ w, s.get? l = some ⟨c.source, w⟩ ∧ (c.expr? = none → w = c.value) := by
  rcases h.cases l with ⟨ht, -⟩ | ⟨source, v, w, ht, hs⟩
  · cases hc.symm.trans ht
  · cases hc.symm.trans ht
    refine ⟨w, hs, fun hexpr => ?_⟩
    have heq := h.get?_eq (l := l) fun hl => by
      have hsome := hl.1
      rw [Store.expr?, hs, Option.bind_some] at hsome
      exact absurd hexpr (Option.isSome_iff_ne_none.mp hsome)
    rw [ht, hs] at heq
    cases heq
    rfl

theorem setValue {v : Value} (h : (s.expr? l).isSome) : s.Revalued (s.setValue l v) (· = l) where
  source m := by
    rw [get?_setValue]
    split
    · rename_i hm
      subst hm
      obtain ⟨expr, hexpr⟩ := Option.isSome_iff_exists.mp h
      obtain ⟨text, missing, old, hget⟩ := expr?_eq_some.mp hexpr
      rw [hget]
      rfl
    · rfl
  value m hm := by
    rw [value_setValue, if_neg]
    rintro rfl
    exact hm ⟨h, rfl⟩

end Revalued

theorem eq_of_get? (h : ∀ l, s.get? l = t.get? l) : s = t :=
  congrArg mk (Std.ExtTreeMap.ext_getElem? h)

end Spreadsheet.Store
