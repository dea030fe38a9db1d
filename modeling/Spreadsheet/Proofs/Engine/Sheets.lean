import Mathlib.Data.List.Basic
import Spreadsheet.Proofs.Engine.Commands
import Spreadsheet.Proofs.Formula.Reference

/-! # Adding a sheet

A new sheet concerns the formulas that miss one of its name. Their references to it come to mean cells of
the new sheet, and nothing else about them changes (`Resolver.Gains`); for all other formulas nothing changes
at all (`Resolver.Unmoved`). -/

namespace Spreadsheet
open Text

/-! ### Sheets -/

namespace Sheets
variable {s t : Sheets} {name n : String}

theorem indexOf?_add_self (h : s.add name = .ok t) (hsame : SameName n name) : t.indexOf? n = some s.size := by
  have hnone : s.indexOf? n = none := (indexOf?_of_sameName hsame).trans (add_eq_ok h).1
  obtain ⟨-, rfl⟩ := add_eq_ok h
  rw [indexOf?] at hnone
  simp [indexOf?, List.findIdx?_append, hnone, hsame.symm, size]

/-- The names without a sheet are those that had none, but for the new one. -/
theorem indexOf?_add_eq_none (h : s.add name = .ok t) :
    t.indexOf? n = none ↔ s.indexOf? n = none ∧ ¬SameName n name := by
  by_cases hsame : SameName n name
  · simp [indexOf?_add_self h hsame, hsame]
  · rw [indexOf?_add h (Or.inr hsame), and_iff_left hsame]

theorem name?_add (h : s.add name = .ok t) {sheet : Nat} (hn : s.name? sheet = some n) : t.name? sheet = some n := by
  obtain ⟨-, rfl⟩ := add_eq_ok h
  obtain ⟨hlt, -⟩ := List.getElem?_eq_some_iff.mp hn
  exact (List.getElem?_append_left hlt).trans hn

end Sheets

/-! ### References of a formula -/

namespace Reference

/-- Whether the reference carries the name of a sheet, in whatever case. -/
def names (r : Reference) (name : String) : Bool :=
  r.sheet?.any (SameName · name)

theorem names_iff {r : Reference} {name : String} :
    r.names name = true ↔ ∃ n, r.sheet? = some n ∧ SameName n name := by
  rw [names, Option.any_eq_true]
  simp only [decide_eq_true_eq]

end Reference

/-! ### Resolving -/

namespace Resolver
variable {s t : Sheets} {name : String} {cell : Location} {reference : Reference} {e : Expr}

theorem resolve_add_of_names (h : s.add name = .ok t) (hgrid : reference.OnGrid) (hnames : reference.names name = true) :
    (atCell s cell).resolve reference = .error .ref ∧ (atCell t cell).resolve reference = .ok (reference.on s.size) := by
  obtain ⟨n, hn, hsame⟩ := Reference.names_iff.mp hnames
  have hnone : s.indexOf? n = none := (Sheets.indexOf?_of_sameName hsame).trans (Sheets.add_eq_ok h).1
  have hsheets (sheets : Sheets) : (atCell sheets cell).sheets = sheets := rfl
  rw [resolve_atCell hgrid, resolve_atCell hgrid, hn]
  simp [sheet, hsheets, hnone, Sheets.indexOf?_add_self h hsame, Except.map]

theorem resolve_add_of_not_names (h : s.add name = .ok t) (hnames : reference.names name = false) :
    (atCell t cell).resolve reference = (atCell s cell).resolve reference := by
  refine Alike.resolve ⟨rfl, rfl, fun n hn => Sheets.indexOf?_add h (Or.inr fun hsame => ?_)⟩
  cases hnames.symm.trans (Reference.names_iff.mpr ⟨n, hn, hsame⟩)

/-- Every reference that carries the name contributes an edge, next to the edges that there were. -/
theorem precedents_add (h : s.add name = .ok t) (hgrid : ∀ reference ∈ e.references, reference.OnGrid) :
    ((atCell t cell).precedents e).Perm ((atCell s cell).precedents e ++
      (e.references.filter (·.names name)).map (·.on s.size)) := by
  have hsplit (r : Resolver) : (r.precedents e).Perm
      ((e.references.filter (·.names name)).filterMap (fun reference => (r.resolve reference).toOption) ++
        (e.references.filter (!·.names name)).filterMap fun reference => (r.resolve reference).toOption) := by
    rw [precedents, ← List.filterMap_append]
    exact ((List.filter_append_perm (·.names name) e.references).filterMap _).symm
  have hnamed : ∀ reference ∈ e.references.filter (·.names name),
      (atCell s cell).resolve reference = .error .ref ∧
        (atCell t cell).resolve reference = .ok (reference.on s.size) := fun reference hmem =>
    resolve_add_of_names h (hgrid reference (List.mem_filter.mp hmem).1) (List.mem_filter.mp hmem).2
  have hnone : (e.references.filter (·.names name)).filterMap (fun r => ((atCell s cell).resolve r).toOption) = [] :=
    List.filterMap_eq_nil_iff.mpr fun reference hmem => by rw [(hnamed reference hmem).1]; rfl
  have hnew : (e.references.filter (·.names name)).filterMap (fun r => ((atCell t cell).resolve r).toOption) =
      (e.references.filter (·.names name)).map (·.on s.size) := by
    rw [← List.filterMap_eq_map]
    exact List.filterMap_congr fun reference hmem => by rw [(hnamed reference hmem).2]; rfl
  have hother : (e.references.filter (!·.names name)).filterMap (fun r => ((atCell t cell).resolve r).toOption) =
      (e.references.filter (!·.names name)).filterMap (fun r => ((atCell s cell).resolve r).toOption) :=
    List.filterMap_congr fun reference hmem => by
      rw [resolve_add_of_not_names h (by simpa using (List.mem_filter.mp hmem).2)]
  have hbefore := hsplit (atCell s cell)
  have hafter := hsplit (atCell t cell)
  rw [hnone, List.nil_append] at hbefore
  rw [hnew, hother] at hafter
  exact (hafter.trans List.perm_append_comm).trans (hbefore.symm.append_right _)

/-- Names are left out before or after the repeated ones are, if the same names are left out together. -/
theorem distinctNames_filter {p : String → Bool} (hp : ∀ m n, SameName m n → p m = p n) (names : List String) :
    distinctNames (names.filter p) = (distinctNames names).filter p := by
  suffices h : ∀ kept : List String,
      (names.filter p).foldl (fun kept n => if kept.any (SameName · n) then kept else kept ++ [n]) (kept.filter p) =
        (names.foldl (fun kept n => if kept.any (SameName · n) then kept else kept ++ [n]) kept).filter p from h []
  induction names with
  | nil => exact fun _ => rfl
  | cons n names ih =>
    intro kept
    rw [List.foldl_cons, ← ih]
    cases hn : p n with
    | false =>
      -- The name is left out on both sides, kept or not.
      rw [List.filter_cons_of_neg (by simp [hn])]
      split
      · rfl
      · simp [List.filter_append, hn]
    | true =>
      have hany : (kept.filter p).any (SameName · n) = kept.any (SameName · n) := by
        rw [List.any_filter]
        refine congrArg (List.any kept) (funext fun m => ?_)
        by_cases hsame : SameName m n
        · simp [hsame, hp m n hsame, hn]
        · simp [hsame]
      rw [List.filter_cons_of_pos hn, List.foldl_cons, hany]
      split
      · rfl
      · simp [List.filter_append, hn]

/-- The names that are missed are those that were, without the new one. -/
theorem missingSheets_add (h : s.add name = .ok t) : (atCell t cell).missingSheets e =
    ((atCell s cell).missingSheets e).filter fun n => ¬SameName n name := by
  have hp : ∀ m n, SameName m n → decide (¬SameName m name) = decide (¬SameName n name) := fun m n hsame =>
    decide_eq_decide.mpr (not_congr ⟨hsame.symm.trans, hsame.trans⟩)
  rw [missingSheets, missingSheets, ← distinctNames_filter hp, List.filter_filterMap]
  refine congrArg distinctNames (List.filterMap_congr fun reference _ => ?_)
  rw [Option.filter_filter]
  refine congrArg (Option.filter · reference.sheet?) (funext fun n => ?_)
  rw [Bool.eq_iff_iff]
  simpa [Option.isNone_iff_eq_none, atCell] using Sheets.indexOf?_add_eq_none h

/-- The references of an expression mean the same, it misses the same sheets, and its value is the same. -/
structure Unmoved (r t : Resolver) (e : Expr) : Prop where
  precedents : t.precedents e = r.precedents e
  missing : t.missingSheets e = r.missingSheets e
  evaluate : ∀ library source limits,
    e.evaluate ⟨library, source, t, limits⟩ = e.evaluate ⟨library, source, r, limits⟩

/-- An expression no longer misses a name: the references that carry it mean cells of the sheet, and the others what
    they meant. -/
structure Gains (r t : Resolver) (name : String) (sheet : Nat) (e : Expr) : Prop where
  missing : t.missingSheets e = (r.missingSheets e).filter fun n => ¬SameName n name
  gone : ¬∃ n ∈ t.missingSheets e, SameName n name
  carried : ∃ reference ∈ e.references, reference.names name = true
  named : ∀ reference ∈ e.references, reference.names name = true → t.resolve reference = .ok (reference.on sheet)
  others : ∀ reference ∈ e.references, reference.names name = false → t.resolve reference = r.resolve reference
  precedents : (t.precedents e).Perm
    (r.precedents e ++ (e.references.filter (·.names name)).map (·.on sheet))

theorem unmoved_of_add (h : s.add name = .ok t) (hmiss : ¬∃ n ∈ (atCell s cell).missingSheets e, SameName n name) :
    (atCell s cell).Unmoved (atCell t cell) e := by
  have halike := alike_of_add h hmiss
  refine ⟨precedents_congr halike, missingSheets_congr halike, fun library source limits => ?_⟩
  refine Expr.evaluate_congr ⟨rfl, rfl, fun r hr => ?_, fun _ _ _ => rfl⟩
  exact Setting.read_congr rfl (halike r (Expr.mem_references.mpr hr)).resolve fun _ _ _ _ => rfl

theorem gains_of_add (h : s.add name = .ok t) (hgrid : ∀ reference ∈ e.references, reference.OnGrid)
    (hmiss : ∃ n ∈ (atCell s cell).missingSheets e, SameName n name) :
    (atCell s cell).Gains (atCell t cell) name s.size e where
  missing := missingSheets_add h
  gone := by
    rintro ⟨n, hn, hsame⟩
    rw [missingSheets_add h, List.mem_filter] at hn
    exact of_decide_eq_true hn.2 hsame
  carried := by
    obtain ⟨reference, hmem, n, hn, -, hsame⟩ := exists_mem_missingSheets.mp hmiss
    exact ⟨reference, hmem, Reference.names_iff.mpr ⟨n, hn, hsame⟩⟩
  named reference hmem hnames := (resolve_add_of_names h (hgrid reference hmem) hnames).2
  others _ _ hnames := resolve_add_of_not_names h hnames
  precedents := precedents_add h hgrid

end Resolver

/-! ### Adding a sheet -/

open Resolver in
/-- To a formula that does not miss a sheet of the new name, the new sheet means nothing. A formula that does comes to
    read the cells of the new sheet that it names, and no longer misses it; for the rest it is as it was. Sheets keep
    their names, and names their sheets. After any commands, the formulas that wait for the sheet are those that miss
    it. -/
theorem Sheets.add_missed {s t : Sheets} {name text : String} {e : Expr} (h : s.add name = .ok t)
    (hparse : Expr.parse text = .ok e) (cell : Location) :
    ((¬∃ n ∈ (atCell s cell).missingSheets e, SameName n name) → (atCell s cell).Unmoved (atCell t cell) e) ∧
      ((∃ n ∈ (atCell s cell).missingSheets e, SameName n name) →
        (atCell s cell).Gains (atCell t cell) name s.size e) ∧
      (∀ sheet n, s.name? sheet = some n → t.name? sheet = some n) ∧
      (∀ sheet n, s.indexOf? n = some sheet → t.indexOf? n = some sheet) ∧
      ∀ (g : Engine) (commands : List Command), g.Started → (g.afterAll commands).sheets = s →
        (g.afterAll commands).store.expr? cell = some e → (cell ∈ (g.afterAll commands).waiting name ↔
          ∃ n ∈ (atCell s cell).missingSheets e, SameName n name) := by
  refine ⟨unmoved_of_add h, gains_of_add h fun reference hmem => Expr.onGrid_of_parse hparse hmem,
    fun sheet n hn => name?_add h hn, fun sheet n hn => ?_, fun g commands hg hs hexpr => ?_⟩
  · exact (indexOf?_add h (Or.inl (hn ▸ rfl))).trans hn
  · subst hs
    exact (hg.linked_afterAll commands).mem_waiting_iff hexpr

open Resolver in
/-- A formula that names a sheet in two ways and another sheet besides, before one of them and before neither. -/
theorem Sheets.add_missed_spellings :
    let e : Expr := .binary .add (.binary .add (.reference (.cell (some "dAta") (.relative 0 0)))
      (.reference (.cell (some "Other") (.relative 0 1))))
      (.call "SUM" [.reference (.range (some "DATA") ⟨.relative 0 0, .relative 1 1⟩)])
    Expr.parse "=dAta!A1+Other!B1+SUM('DATA'!A1:B2)" = .ok e ∧ initial.add "Data" = .ok ⟨["Sheet1", "Data"]⟩ ∧
      (∃ n ∈ (atCell initial ⟨0, 5, 5⟩).missingSheets e, SameName n "Data") ∧
      (atCell initial ⟨0, 5, 5⟩).Gains (atCell ⟨["Sheet1", "Data"]⟩ ⟨0, 5, 5⟩) "Data" 1 e ∧
      initial.add "More" = .ok ⟨["Sheet1", "More"]⟩ ∧
      (¬∃ n ∈ (atCell initial ⟨0, 5, 5⟩).missingSheets e, SameName n "More") ∧
      (atCell initial ⟨0, 5, 5⟩).Unmoved (atCell ⟨["Sheet1", "More"]⟩ ⟨0, 5, 5⟩) e := by
  intro e
  have hparse : Expr.parse "=dAta!A1+Other!B1+SUM('DATA'!A1:B2)" = .ok e := by cbv
  have hdata : initial.add "Data" = .ok ⟨["Sheet1", "Data"]⟩ := by decide
  have hmore : initial.add "More" = .ok ⟨["Sheet1", "More"]⟩ := by decide
  have hmissing : (atCell initial ⟨0, 5, 5⟩).missingSheets e = ["dAta", "Other"] := by
    rw [missingSheets, Expr.references, Expr.walk_singleton]
    decide
  have hmiss : ∃ n ∈ (atCell initial ⟨0, 5, 5⟩).missingSheets e, SameName n "Data" := by
    rw [hmissing]
    decide
  have hno : ¬∃ n ∈ (atCell initial ⟨0, 5, 5⟩).missingSheets e, SameName n "More" := by
    rw [hmissing]
    decide
  exact ⟨hparse, hdata, hmiss, (add_missed hdata hparse ⟨0, 5, 5⟩).2.1 hmiss, hmore, hno,
    (add_missed hmore hparse ⟨0, 5, 5⟩).1 hno⟩

end Spreadsheet
