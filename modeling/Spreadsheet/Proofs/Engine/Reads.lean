import Mathlib
import Spreadsheet.Proofs.Engine.Consistency
import Spreadsheet.Proofs.Engine.Entries

/-! # What a formula reads

An evaluation sees the cells only through the references of the expression. So the value of a formula is
settled by the cells that it reads, and as long as these stay the same it need not be evaluated again. -/

namespace Spreadsheet.Engine
variable {e : Engine} {l : Location}

/-- A formula has the value that it evaluates to in every store that holds it and the same in the cells it reads. -/
theorem Consistent.committed_compute (he : e.Consistent) {t : Store} (hno : ¬e.dependencies.OnCycle l)
    (hexpr : t.expr? l = e.store.expr? l) (hvalue : ∀ p ∈ e.precedents l, ∀ m, p.Covers m → t.value m = e.value m)
    {r : Except Fault Value} (hr : e.rules.compute t l = some r) : committed r = e.value l := by
  have hcompute : e.rules.compute t l = e.rules.compute e.store l :=
    Rules.compute_congr he.mirrors hexpr (fun _ _ => .refl) fun m ⟨p, hp, hm⟩ => hvalue p hp m hm
  exact ((he.current l).evaluated hno r (hcompute.symm.trans hr)).symm

/-- An evaluation depends on no value but those of the cells that the references mean. So after any commands a
    formula would be given the value that it has, whatever the other cells were to hold. -/
theorem evaluate_precedents (h : e.Started) (commands : List Command) :
    (∀ (expr : Expr) (library : Library) (resolver : Resolver) (limits : Limits) (source other : Location → Value),
      (∀ p ∈ resolver.precedents expr, ∀ l, p.Covers l → source l = other l) →
        expr.evaluate ⟨library, source, resolver, limits⟩ = expr.evaluate ⟨library, other, resolver, limits⟩) ∧
      ∀ l (t : Store), ¬(e.afterAll commands).dependencies.OnCycle l →
        t.expr? l = (e.afterAll commands).store.expr? l →
        (∀ p ∈ (e.afterAll commands).precedents l, ∀ m, p.Covers m → t.value m = (e.afterAll commands).value m) →
          ∀ r, (e.afterAll commands).rules.compute t l = some r → committed r = (e.afterAll commands).value l :=
  ⟨fun _ _ _ _ _ _ hagree => Expr.evaluate_eq_of_source hagree, fun _ _ hno hexpr hvalue _ hr =>
    (h.consistent_afterAll commands).committed_compute hno hexpr hvalue hr⟩

/-- A cell and a block are read from another cell than they were written for, and a text in the first cell of the
    sheet is not; nor is it by a formula that was entered and reads its right neighbour only. -/
theorem evaluate_precedents_relocated :
    (Expr.binary .add (.reference (.cell none (.relative 0 1)))
        (.call "SUM" [.reference (.range none (.spanning (.relative 0 2) (.relative 4 3)))])).evaluate
          ⟨.builtin, fun _ => .number 1, ⟨.initial, ⟨0, 8, 8⟩, ⟨0, 9, 8⟩⟩, .standard⟩ =
      (Expr.binary .add (.reference (.cell none (.relative 0 1)))
        (.call "SUM" [.reference (.range none (.spanning (.relative 0 2) (.relative 4 3)))])).evaluate
          ⟨.builtin, fun l => if l = ⟨0, 0, 0⟩ then .text "x" else .number 1, ⟨.initial, ⟨0, 8, 8⟩, ⟨0, 9, 8⟩⟩,
            .standard⟩ ∧
      ∀ r, (initial.afterAll [.input ⟨.location ⟨0, 1, 0⟩, .text "=B2"⟩]).rules.compute
          ((initial.afterAll [.input ⟨.location ⟨0, 1, 0⟩, .text "=B2"⟩]).store.setValue ⟨0, 0, 0⟩ (.text "x"))
            ⟨0, 1, 0⟩ = some r →
        committed r = (initial.afterAll [.input ⟨.location ⟨0, 1, 0⟩, .text "=B2"⟩]).value ⟨0, 1, 0⟩ := by
  constructor
  · have hprecedents : (⟨.initial, ⟨0, 8, 8⟩, ⟨0, 9, 8⟩⟩ : Resolver).precedents
        (Expr.binary .add (.reference (.cell none (.relative 0 1)))
          (.call "SUM" [.reference (.range none (.spanning (.relative 0 2) (.relative 4 3)))])) =
            [.cell ⟨0, 1, 1⟩, .block ⟨0, 1, 2, 5, 3⟩] := by cbv
    refine (evaluate_precedents (Or.inl rfl) []).1 _ _ _ _ _ _ ?_
    rw [hprecedents]
    rintro p hp l hl
    have hother : l ≠ ⟨0, 0, 0⟩ := by
      rintro rfl
      simp only [List.mem_cons, List.not_mem_nil, or_false] at hp
      rcases hp with rfl | rfl
      · cases hl
      · exact absurd hl (by decide)
    rw [if_neg hother]
  · have hprecedents : (initial.afterAll [.input ⟨.location ⟨0, 1, 0⟩, .text "=B2"⟩]).precedents ⟨0, 1, 0⟩ =
        [.cell ⟨0, 1, 1⟩] := by cbv
    have hlinked := Started.linked (e := initial) (Or.inl rfl)
    have hnone : (initial.afterAll [.input ⟨.location ⟨0, 1, 0⟩, .text "=B2"⟩]).precedents ⟨0, 1, 1⟩ = [] := by
      refine (hlinked.step (.input ⟨.location ⟨0, 1, 0⟩, .text "=B2"⟩)).precedents_eq_nil ?_
      have hget := hlinked.get?_after (l := ⟨0, 1, 1⟩) (.input ⟨.location ⟨0, 1, 0⟩, .text "=B2"⟩) rfl (by decide)
      rw [Store.expr?, hget]
      rfl
    refine (evaluate_precedents (Or.inl rfl) [.input ⟨.location ⟨0, 1, 0⟩, .text "=B2"⟩]).2 _ _ ?_ ?_ ?_
    · intro hon
      obtain ⟨m, ⟨p, hp, hm⟩, hrest⟩ := Relation.TransGen.head'_iff.mp hon
      rw [precedents] at hprecedents hnone
      rw [hprecedents, List.mem_singleton] at hp
      subst hp
      cases hm
      rcases Relation.ReflTransGen.cases_head hrest with heq | ⟨_, ⟨_, hq, -⟩, -⟩
      · cases heq
      · rw [hnone] at hq
        cases hq
    · rw [Store.expr?, Store.get?_setValue, if_neg (by decide), Store.expr?]
    · rw [hprecedents]
      intro p hp m hm
      obtain rfl := List.mem_singleton.mp hp
      cases hm
      exact Store.value_setValue.trans (if_neg (by decide))

end Spreadsheet.Engine
