import Spreadsheet.Formula.Resolution
import Spreadsheet.Proofs.Formula.Canonical

/-! # References as they are written

A reference is written as text that reads back to it if it is on the grid, its sheet has a name and its range goes
from the upper left to the lower right, and in no other case (`Expr.parse_reference_toText_iff`). In the cell that it
was written for, it means what it says (`Resolver.resolve_atCell`). -/

namespace Spreadsheet

/-! ### Corners -/

namespace AddressRange

/-- Whether the first corner is the upper left one. -/
def Upright (r : AddressRange) : Prop :=
  r.first.row ≤ r.last.row ∧ r.first.column ≤ r.last.column

theorem upright_spanning (a b : Address) : (spanning a b).Upright := by
  unfold spanning Upright
  grind

/-- The corners that span a range are its own if the first one is the upper left one. -/
theorem spanning_eq_iff {r : AddressRange} : spanning r.first r.last = r ↔ r.Upright := by
  refine ⟨fun h => h ▸ upright_spanning _ _, fun ⟨hrow, hcolumn⟩ => ?_⟩
  rw [spanning, if_pos hrow, if_pos hcolumn]

end AddressRange

namespace Reference

def OnGrid : Reference → Prop
  | cell _ a => a.OnGrid
  | range _ r => r.first.OnGrid ∧ r.last.OnGrid

/-- Whether the corners of the reference are in order, if it has corners. -/
def Upright : Reference → Prop
  | cell _ _ => True
  | range _ r => r.Upright

/-- What the addresses of the reference mean on a sheet. -/
def on (sheet : Nat) : Reference → Precedent
  | cell _ a => .cell (.ofAddress sheet a)
  | range _ r => .block (.spanning sheet r.first.row r.first.column r.last.row r.last.column)

end Reference

/-! ### The references of a formula -/

theorem subset_parenthesizedIf {needed : Bool} {ks : List TokenKind} : ks ⊆ parenthesizedIf needed ks := by
  intro k hk
  unfold parenthesizedIf
  split
  · exact List.mem_cons_of_mem _ (List.mem_append_left _ hk)
  · exact hk

namespace Expr

mutual

/-- The tokens of a node are among those of the expression. -/
theorem layout_subset (e : Expr) : ∀ node ∈ preorder e, node.layout ⊆ e.layout := by
  intro node hnode
  cases e with
  | unary op x =>
    rcases List.mem_cons.mp hnode with rfl | hnode
    · exact List.Subset.refl _
    · rw [layout]
      exact List.subset_cons_of_subset _ (List.Subset.trans (layout_subset x node hnode) subset_parenthesizedIf)
  | binary op l r =>
    rcases List.mem_cons.mp hnode with rfl | hnode
    · exact List.Subset.refl _
    · rw [layout]
      rcases List.mem_append.mp hnode with hnode | hnode
      · exact List.subset_append_of_subset_left _ (List.Subset.trans (layout_subset l node hnode) subset_parenthesizedIf)
      · exact List.subset_append_of_subset_right _
          (List.subset_cons_of_subset _ (List.Subset.trans (layout_subset r node hnode) subset_parenthesizedIf))
  | call name args =>
    rcases List.mem_cons.mp hnode with rfl | hnode
    · exact List.Subset.refl _
    · rw [layout]
      exact List.subset_cons_of_subset _ (List.subset_cons_of_subset _
        (List.subset_append_of_subset_left _ (layoutArguments_subset args node hnode)))
  | _ =>
    obtain rfl := List.mem_singleton.mp hnode
    exact List.Subset.refl _

theorem layoutArguments_subset (es : List Expr) : ∀ node ∈ preorderAll es, node.layout ⊆ layoutArguments es := by
  intro node hnode
  cases es with
  | nil => cases hnode
  | cons e es =>
    cases es with
    | nil =>
      rw [preorderAll, preorderAll, List.append_nil] at hnode
      exact layout_subset e node hnode
    | cons f fs =>
      rw [layoutArguments]
      rcases List.mem_append.mp hnode with hnode | hnode
      · exact List.subset_append_of_subset_left _ (layout_subset e node hnode)
      · exact List.subset_append_of_subset_right _
          (List.subset_cons_of_subset _ (layoutArguments_subset (f :: fs) node hnode))

end

/-- What is read as a formula refers to addresses on the grid. -/
theorem onGrid_of_parse {text : String} {e : Expr} (h : Expr.parse text = .ok e) {r : Reference}
    (hr : r ∈ e.references) : r.OnGrid := by
  have hlexical : ∀ k ∈ r.layout, k.Lexical := fun k hk =>
    (Legible.of_parse h).lexical k (layout_subset e _ (mem_references.mp hr) hk)
  cases r with
  | cell sheet a => exact hlexical (.address a) (by simp [Reference.layout])
  | range sheet range =>
    exact ⟨hlexical (.address range.first) (by simp [Reference.layout]),
      hlexical (.address range.last) (by simp [Reference.layout])⟩

end Expr

/-! ### References that read back -/

theorem lexical_sheetTokens_iff {sheet : Option String} :
    (∀ k ∈ sheetTokens sheet, k.Lexical) ↔ sheet ≠ some "" := by
  cases sheet with
  | none => simp [sheetTokens]
  | some name => simp [sheetTokens, TokenKind.Lexical]

namespace Reference
variable {r : Reference}

theorem lexical_layout_iff : (∀ k ∈ r.layout, k.Lexical) ↔ r.sheet? ≠ some "" ∧ r.OnGrid := by
  cases r with
  | cell sheet a =>
    rw [layout, List.forall_mem_append, lexical_sheetTokens_iff, List.forall_mem_singleton]
    rfl
  | range sheet r =>
    rw [layout, List.forall_mem_append, lexical_sheetTokens_iff]
    simp [TokenKind.Lexical, OnGrid, sheet?]

theorem spanned_iff : (Expr.reference r).Spanned ↔ r.Upright := by
  cases r with
  | cell sheet a => exact iff_of_true (fun _ _ h => by cases List.mem_singleton.mp h) trivial
  | range sheet r =>
    rw [Upright, ← AddressRange.spanning_eq_iff]
    refine ⟨fun h => h sheet r (List.mem_singleton_self _), fun h _ _ hr => ?_⟩
    cases List.mem_singleton.mp hr
    exact h

theorem legible_iff : (Expr.reference r).Legible ↔ r.sheet? ≠ some "" ∧ r.OnGrid ∧ r.Upright := by
  rw [← and_assoc, ← lexical_layout_iff, ← spanned_iff]
  exact ⟨fun h => ⟨h.lexical, h.spanned⟩, fun h => ⟨h.1, h.2⟩⟩

/-- No operator stands in a reference. -/
theorem noErrorBeforeSlash_layout : NoErrorBeforeSlash r.layout := by
  refine noErrorBeforeSlash_of_forall ?_
  cases r with
  | cell sheet a => cases sheet <;> simp [layout, sheetTokens]
  | range sheet r => cases sheet <;> simp [layout, sheetTokens]

end Reference

/-- The text of a reference reads back to it, its sheet character for character, exactly if it is on the grid, its
    sheet has a name at all, and its corners are in order. -/
theorem Expr.parse_reference_toText_iff (r : Reference) :
    Expr.parse ("=" ++ r.toText) = .ok (.reference r) ↔ r.sheet? ≠ some "" ∧ r.OnGrid ∧ r.Upright := by
  rw [← Reference.legible_iff]
  refine ⟨Legible.of_parse, fun h => ?_⟩
  have hnesting : (reference r).nesting + 1 ≤ maxNesting := show 0 + 1 ≤ maxNesting by decide
  exact (h.reading.parse h.lexical (toList_toText (.reference r)) Reference.noErrorBeforeSlash_layout).1 hnesting

/-! ### Resolving -/

theorem Address.shift?_zero {a : Address} (h : a.OnGrid) : a.shift? 0 0 = some a := by
  obtain ⟨hrow, hcolumn⟩ := h
  rw [shift?, if_pos (by omega)]
  simp

namespace Resolver
variable {s : Sheets} {cell : Location} {reference : Reference}

theorem shift_atCell {a : Address} (h : a.OnGrid) : (atCell s cell).shift a = .ok a := by
  simp [shift, atCell, Address.shift?_zero h]

/-- In the cell that it was written for, a reference means its addresses on its sheet. -/
theorem resolve_atCell (h : reference.OnGrid) :
    (atCell s cell).resolve reference = ((atCell s cell).sheet reference.sheet?).map reference.on := by
  cases reference with
  | cell sheet a =>
    rw [resolve, shift_atCell h, Reference.sheet?]
    cases (atCell s cell).sheet sheet <;> rfl
  | range sheet r =>
    rw [resolve, shift_atCell h.1, shift_atCell h.2, Reference.sheet?]
    cases (atCell s cell).sheet sheet <;> rfl

end Resolver

end Spreadsheet
