import Spreadsheet.Content
import Spreadsheet.Evaluation
import Spreadsheet.Proofs.Formula.Traversal

/-! # Finite numbers

A number that is typed or computed is finite; what would not be is `#NUM`. So an evaluation has no other
number for its value unless it reads one, and none that differs from itself. -/

namespace Spreadsheet

namespace Number

theorem magnitude_neg (n : Number) : n.neg.magnitude = n.magnitude := by
  have hbit : signBit = 2 ^ 63 := rfl
  have hone : (0x8000000000000000 : UInt64).toNat % 2 ^ 63 = 0 := rfl
  rw [magnitude, neg, UInt64.toNat_xor, hbit, Nat.xor_mod_two_pow, hone, Nat.xor_zero, magnitude, hbit]

theorem isNaN_of_isFinite {n : Number} (h : n.isFinite = true) : n.isNaN = false := by
  have hlt : n.magnitude < infinityMagnitude := of_decide_eq_true h
  exact decide_eq_false (by omega)

theorem isFinite_of_readUnsigned {cs : List Char} {n : Number} (h : Numeral.readUnsigned cs = some n) :
    n.isFinite = true := by
  unfold Numeral.readUnsigned at h
  split at h
  · unfold Numeral.toNumber? at h
    simp only [Bool.and_eq_true, Option.ite_none_right_eq_some, Option.some.injEq] at h
    obtain ⟨⟨-, hfinite⟩, rfl⟩ := h
    exact hfinite
  · cases h

theorem isFinite_of_ofText {s : String} {n : Number} (h : ofText? s = some n) : n.isFinite = true := by
  unfold ofText? read? at h
  split at h
  · obtain ⟨m, hm, rfl⟩ := Option.map_eq_some_iff.mp h
    have hfinite := isFinite_of_readUnsigned hm
    rwa [isFinite, magnitude_neg]
  · exact isFinite_of_readUnsigned h
  · exact isFinite_of_readUnsigned h

end Number

namespace Value

/-- Whether the value is a pattern that is no number. -/
def isNaN : Value → Bool
  | number n => n.isNaN
  | _ => false

/-- Whether the value is anything but a number that is not finite. -/
def isFinite : Value → Bool
  | number n => n.isFinite
  | _ => true

theorem same_self (v : Value) : v.same v = !v.isNaN := by
  cases v with
  | number n => simp [same, isNaN, Number.same]
  | _ => simp [same, isNaN]

theorem isNaN_of_isFinite {v : Value} (h : v.isFinite = true) : v.isNaN = false := by
  cases v with
  | number n => exact Number.isNaN_of_isFinite h
  | _ => rfl

theorem isFinite_ofNumber (n : Number) : (ofNumber n).isFinite = true := by
  unfold ofNumber
  split
  · assumption
  · rfl

theorem isFinite_normalized (v : Value) : v.normalized.isFinite = true := by
  cases v with
  | number n => exact isFinite_ofNumber n
  | _ => rfl

end Value

theorem Content.isFinite_ofText (s : String) : (Content.ofText s).constantValue.isFinite = true := by
  unfold ofText
  split
  · rfl
  · unfold constantOf
    dsimp only
    split
    · rfl
    · split
      · exact Number.isFinite_of_ofText ‹_›
      · rfl
      · rfl

theorem Content.isNaN_ofText (s : String) : (Content.ofText s).constantValue.isNaN = false :=
  Value.isNaN_of_isFinite (isFinite_ofText s)

theorem Content.constantValue_ofValue (v : Value) : (Content.ofValue v).constantValue = v := by
  cases v <;> rfl

/-! ### Operators -/

theorem BinaryOp.isFinite_calculate (op : BinaryOp) (a b : Number) : (op.calculate a b).isFinite = true := by
  unfold calculate
  split
  case h_4 =>
    split
    · rfl
    · exact Value.isFinite_ofNumber _
  all_goals exact Value.isFinite_ofNumber _

theorem BinaryOp.isFinite_applyProper (op : BinaryOp) (a b : Value) : (op.applyProper a b).isFinite = true := by
  unfold applyProper
  split
  · rfl
  · split
    · rfl
    · split
      · exact isFinite_calculate op _ _
      · rfl
      · rfl

theorem BinaryOp.isFinite_apply (op : BinaryOp) (a b : Value) : (op.apply a b).isFinite = true := by
  unfold apply
  split
  · rfl
  · rfl
  · exact isFinite_applyProper op _ _

section
variable {p : Value → Prop} (hfinite : ∀ v, v.isFinite = true → p v)
include hfinite

theorem UnaryOp.holds_apply (op : UnaryOp) {v : Value} (h : p v) : p (op.apply v) := by
  unfold apply
  split
  · exact h
  · cases op with
    | plus => exact h
    | negate =>
      cases v.toNumber with
      | ok n => exact hfinite _ (Value.isFinite_ofNumber _)
      | error e => exact hfinite _ rfl

/-! ### Expressions -/

theorem Setting.holds_read {s : Setting} (r : Reference)
    (hs : ∀ l, s.resolver.resolve r = .ok (.cell l) → p (s.source l)) : p (s.read r).toValue := by
  unfold read
  split
  · exact hfinite _ rfl
  · exact hs _ ‹_›
  · split <;> exact hfinite _ rfl

/-- Only a reference, under any number of plus signs, passes on a value that was read. -/
theorem Expr.holds_evaluateAt {s : Setting} (e : Expr) (hread : ∀ r ∈ e.references, p (s.read r).toValue) {depth : Nat}
    {a : Argument} (h : e.evaluateAt s depth = .ok a) : p a.toValue := by
  unfold evaluateAt at h
  split at h
  · cases h
    exact hfinite _ rfl
  cases e with
  | number n =>
    cases h
    exact hfinite _ (Value.isFinite_ofNumber n)
  | text t =>
    cases h
    exact hfinite _ rfl
  | boolean b =>
    cases h
    exact hfinite _ rfl
  | error e =>
    cases h
    exact hfinite _ rfl
  | reference r =>
    cases h
    exact hread r (mem_references.mpr (mem_preorder_self _))
  | unary op x =>
    dsimp only at h
    split at h
    · cases h
    · cases h
      refine op.holds_apply hfinite (holds_evaluateAt x (fun r hr => hread r ?_) ‹_›)
      exact mem_references.mpr (List.mem_cons_of_mem _ (mem_references.mp hr))
  | binary op l r =>
    dsimp only at h
    repeat' split at h
    all_goals cases h
    exact hfinite _ (op.isFinite_apply _ _)
  | call name args =>
    -- A result of a function is normalized; all else is an error value.
    have hnorm : ∀ (outcome : Except Fault Value),
        outcome.map (fun v => Argument.value v.normalized) = .ok a → p a.toValue := by
      intro outcome houtcome
      cases outcome with
      | error fault => cases houtcome
      | ok v =>
        cases houtcome
        exact hfinite _ (Value.isFinite_normalized v)
    dsimp only at h
    split at h
    · cases h
      exact hfinite _ rfl
    split at h
    · cases h
      exact hfinite _ rfl
    split at h
    · split at h
      · cases h
      · cases h
        exact hfinite _ rfl
      · exact hnorm _ h
    · exact hnorm _ h

/-- A property of the finite values and of the cells that an expression reads is one of its value. -/
theorem Expr.holds_evaluate {s : Setting} {e : Expr}
    (hs : ∀ r ∈ e.references, ∀ l, s.resolver.resolve r = .ok (.cell l) → p (s.source l)) {v : Value}
    (h : e.evaluate s = .ok v) : p v := by
  unfold evaluate at h
  cases ha : e.evaluateAt s 0 with
  | error fault =>
    rw [ha] at h
    cases h
  | ok a =>
    rw [ha] at h
    cases h
    exact e.holds_evaluateAt hfinite (fun r hr => s.holds_read hfinite r (hs r hr)) ha

end

theorem Expr.isNaN_evaluate {s : Setting} (hs : ∀ l, (s.source l).isNaN = false) {e : Expr} {v : Value}
    (h : e.evaluate s = .ok v) : v.isNaN = false :=
  holds_evaluate (p := fun v => v.isNaN = false) (fun _ => Value.isNaN_of_isFinite) (fun _ _ l _ => hs l) h

end Spreadsheet
