import Spreadsheet.Proofs.Formula.Grammar
import Spreadsheet.Proofs.Formula.Traversal

/-! # The layout of an expression is a reading of it

`Expr.nesting` says how deep a layout nests: parentheses that are left out may lengthen a run of
operators, those that are put in around a sign or an exponent nest deeper. -/

namespace Spreadsheet

open Parse

/-! ### The nesting of a layout -/

namespace Expr

/-- The operators of strength `p` on the left spine: those of the run that the expression ends. -/
def operators (p : Nat) : Expr → Nat
  | binary op l _ => if op.precedence = p ∧ op.groupsRight = false then operators p l + 1 else 0
  | _ => 0

/-- Parentheses nest one deeper. -/
def nestedIf (parenthesized : Bool) (n : Nat) : Nat :=
  if parenthesized then n + 1 else n

mutual

/-- How deep the layout of an expression nests. -/
def nesting : Expr → Nat
  | unary _ x => nestedIf (x.precedence < signPrecedence) (nesting x) + 1
  | binary op l r =>
    max (nestedIf (parenthesizedLeft op l) (nesting l))
      (operators op.precedence l + 1 + nestedIf (parenthesizedRight op r) (nesting r))
  | call _ args => nestingArguments args
  | _ => 0

def nestingArguments : List Expr → Nat
  | [] => 0
  | e :: es => max (nesting e + 1) (nestingArguments es)

end

/-- Every range is spanned by its own corners. -/
def Spanned (e : Expr) : Prop :=
  ∀ sheet r, .reference (.range sheet r) ∈ preorder e → AddressRange.spanning r.first r.last = r

end Expr

/-! ### The layout is a reading -/

/-- The level of an operator that groups from the left. -/
def BinaryOp.level? : BinaryOp → Option Level
  | add | subtract => some .additive
  | multiply | divide => some .multiplicative
  | power => none
  | equal | notEqual | less | lessEqual | greater | greaterEqual => some .comparison
  | concat => some .concatenation

theorem BinaryOp.op?_token {op : BinaryOp} {level : Level} (h : op.level? = some level) :
    level.op? op.token = some op := by
  cases op <;> cases h <;> rfl

theorem BinaryOp.precedence_of_level? {op : BinaryOp} {level : Level} (h : op.level? = some level) :
    op.precedence = level.precedence ∧ op.groupsRight = false := by
  cases op <;> cases h <;> exact ⟨rfl, rfl⟩

theorem BinaryOp.eq_power {op : BinaryOp} (h : op.level? = none) : op = .power := by
  cases op <;> first | rfl | cases h

namespace Parse.Reading
variable {e : Expr} {ts rest : List TokenKind} {n : Nat}

theorem operand_of_tighter {a b : Level} (hab : a.tighter? = some b) (h : Reading (.operand b e) ts rest n) :
    Reading (.operand a e) ts rest n :=
  .tighter hab (.chain (.first h))

theorem operand_of_signed (h : Reading (.signed e) ts rest n) (level : Level) : Reading (.operand level e) ts rest n := by
  have hmultiplicative : Reading (.operand .multiplicative e) ts rest n := .tightest rfl h
  have hadditive : Reading (.operand .additive e) ts rest n := operand_of_tighter rfl hmultiplicative
  have hconcatenation : Reading (.operand .concatenation e) ts rest n := operand_of_tighter rfl hadditive
  cases level with
  | multiplicative => exact hmultiplicative
  | additive => exact hadditive
  | concatenation => exact hconcatenation
  | comparison => exact operand_of_tighter rfl hconcatenation

theorem operand_of_run {a b : Level} {k : Nat} (h : Reading (.run a k e) ts rest n)
    (hab : b.precedence < a.precedence) : Reading (.operand b e) ts rest n := by
  cases b <;> cases a <;> first
    | exact absurd hab (by decide)
    | exact .tighter rfl (.chain h)
    | exact operand_of_tighter rfl (.tighter rfl (.chain h))
    | exact operand_of_tighter rfl (operand_of_tighter rfl (.tighter rfl (.chain h)))

end Parse.Reading

namespace Expr

/-- The phrases that tokens write an expression as, by the strength of its outermost operator. -/
structure Reads (e : Expr) (ts rest : List TokenKind) (n : Nat) : Prop where
  run : ∀ level : Level, level.precedence ≤ e.precedence →
    Reading (.run level (e.operators level.precedence) e) ts rest n
  operand : ∀ level : Level, level.precedence < e.precedence → Reading (.operand level e) ts rest n
  signed : signPrecedence ≤ e.precedence → Reading (.signed e) ts rest n
  primary : primaryPrecedence ≤ e.precedence → Reading (.primary e) ts rest n

variable {e l r x : Expr} {ts rest : List TokenKind} {n : Nat}

theorem operators_eq_zero {p : Nat} (h : e.precedence ≠ p) : operators p e = 0 := by
  cases e with
  | binary op l r => rw [operators, if_neg fun hp => h hp.1]
  | _ => rfl

theorem operators_power (e : Expr) : operators BinaryOp.power.precedence e = 0 := by
  cases e with
  | binary op l r =>
    rw [operators, if_neg]
    cases op <;> decide
  | _ => rfl

theorem Reads.of_signed (h : Reading (.signed e) ts rest n) (hsign : ∀ level : Level, e.precedence ≠ level.precedence)
    (hprimary : primaryPrecedence ≤ e.precedence → Reading (.primary e) ts rest n) : Reads e ts rest n where
  run level _ := by
    rw [operators_eq_zero (hsign level)]
    exact .first (h.operand_of_signed level)
  operand level _ := h.operand_of_signed level
  signed _ := h
  primary := hprimary

theorem Reads.of_primary (h : Reading (.primary e) ts rest n) (he : e.precedence = primaryPrecedence) :
    Reads e ts rest n :=
  .of_signed (.unsigned (.base h)) (fun level => by rw [he]; cases level <;> decide) fun _ => h

theorem Reads.of_run {level : Level} (h : Reading (.run level (e.operators level.precedence) e) ts rest n)
    (he : e.precedence = level.precedence) : Reads e ts rest n where
  run other hother := by
    by_cases heq : other = level
    · subst heq
      exact h
    · have hne : e.precedence ≠ other.precedence := by
        rw [he]
        cases other <;> cases level <;> first | exact absurd rfl heq | decide
      rw [operators_eq_zero hne]
      exact .first (h.operand_of_run (by omega))
  operand other hother := h.operand_of_run (by omega)
  signed hs := by cases level <;> exact absurd (he ▸ hs) (by decide)
  primary hs := by cases level <;> exact absurd (he ▸ hs) (by decide)

theorem one_le_precedence (e : Expr) : 1 ≤ e.precedence := by
  cases e with
  | binary op l r => cases op <;> simp [precedence, BinaryOp.precedence]
  | _ => simp [precedence, signPrecedence, primaryPrecedence]

theorem Reads.expression (h : Reads e ts rest n) : Reading (.expression e) ts rest (n + 1) :=
  .expression (.chain (h.run .comparison e.one_le_precedence))

/-! #### Operands, in parentheses or not -/

section Operands
variable (h : ∀ rest, Reads e (e.layout ++ rest) rest n) (rest : List TokenKind)
include h

theorem reading_parenthesized : Reading (.primary e) (parenthesizedIf true e.layout ++ rest) rest (nestedIf true n) := by
  have hinner := Reading.parenthesized (h (.rightParen :: rest)).expression
  simpa [parenthesizedIf, nestedIf] using hinner

theorem reading_signed : Reading (.signed e) (parenthesizedIf (e.precedence < signPrecedence) e.layout ++ rest) rest
    (nestedIf (e.precedence < signPrecedence) n) := by
  cases hp : decide (e.precedence < signPrecedence) with
  | true => exact .unsigned (.base (reading_parenthesized h rest))
  | false => exact (h rest).signed (by simpa using hp)

theorem reading_base : Reading (.primary e) (parenthesizedIf (parenthesizedLeft .power e) e.layout ++ rest) rest
    (nestedIf (parenthesizedLeft .power e) n) := by
  cases hp : parenthesizedLeft .power e with
  | true => exact reading_parenthesized h rest
  | false =>
    have hlt : ¬e.precedence ≤ 6 := of_decide_eq_false hp
    exact (h rest).primary (Nat.lt_of_not_le hlt)

theorem reading_exponent : Reading (.signed e) (parenthesizedIf (parenthesizedRight .power e) e.layout ++ rest) rest
    (nestedIf (parenthesizedRight .power e) n) := by
  cases hp : parenthesizedRight .power e with
  | true => exact .unsigned (.base (reading_parenthesized h rest))
  | false =>
    have hle : ¬e.precedence < 6 := of_decide_eq_false hp
    exact (h rest).signed (Nat.le_of_succ_le (Nat.le_of_not_lt hle))

variable {op : BinaryOp} {level : Level} (hop : op.level? = some level)
include hop

theorem reading_left : Reading (.run level (operators op.precedence e) e)
    (parenthesizedIf (parenthesizedLeft op e) e.layout ++ rest) rest (nestedIf (parenthesizedLeft op e) n) := by
  obtain ⟨hprec, hgroups⟩ := BinaryOp.precedence_of_level? hop
  cases hp : parenthesizedLeft op e with
  | true =>
    have hlt : e.precedence < op.precedence := by simpa [parenthesizedLeft, hgroups] using hp
    rw [operators_eq_zero (by omega)]
    exact .first (.operand_of_signed (.unsigned (.base (reading_parenthesized h rest))) level)
  | false =>
    rw [hprec]
    exact (h rest).run level (by simpa [parenthesizedLeft, hgroups, hprec] using hp)

theorem reading_right : Reading (.operand level e) (parenthesizedIf (parenthesizedRight op e) e.layout ++ rest) rest
    (nestedIf (parenthesizedRight op e) n) := by
  obtain ⟨hprec, hgroups⟩ := BinaryOp.precedence_of_level? hop
  cases hp : parenthesizedRight op e with
  | true => exact .operand_of_signed (.unsigned (.base (reading_parenthesized h rest))) level
  | false => exact (h rest).operand level (by simpa [parenthesizedRight, hgroups, hprec] using hp)

end Operands

theorem spelling_layout {r : Reference} (h : Spanned (.reference r)) : Spelling r r.layout := by
  cases r with
  | cell sheet a => exact .cell sheet a
  | range sheet r =>
    have hspell := Spelling.range sheet r.first r.last
    rwa [h sheet r (mem_preorder_self _)] at hspell

theorem Spanned.mono (h : Spanned e) (hsub : ∀ node ∈ preorder x, node ∈ preorder e) : Spanned x :=
  fun sheet r hr => h sheet r (hsub _ hr)

theorem reads_binary {op : BinaryOp} {m : Nat} (hl : ∀ rest, Reads l (l.layout ++ rest) rest m)
    (hr : ∀ rest, Reads r (r.layout ++ rest) rest n) (rest : List TokenKind) :
    Reads (.binary op l r) ((binary op l r).layout ++ rest) rest
      (max (nestedIf (parenthesizedLeft op l) m)
        (operators op.precedence l + 1 + nestedIf (parenthesizedRight op r) n)) := by
  rw [layout, List.append_assoc, List.cons_append]
  cases hop : op.level? with
  | some level =>
    obtain ⟨hprec, hgroups⟩ := BinaryOp.precedence_of_level? hop
    refine Reads.of_run (show Reading (.run level _ _) _ _ _ from ?_) hprec
    rw [operators, if_pos ⟨hprec, hgroups⟩, ← hprec]
    exact .next (reading_left hl _ hop) (BinaryOp.op?_token hop) (reading_right hr rest hop)
  | none =>
    obtain rfl := BinaryOp.eq_power hop
    have hprec : (binary .power l r).precedence = 6 := rfl
    rw [operators_power, Nat.zero_add, Nat.add_comm 1]
    refine .of_signed (.unsigned (.exponent (reading_base hl _) (reading_exponent hr rest))) (fun level => ?_)
      fun hp => absurd (hprec ▸ hp) (by decide)
    rw [hprec]
    cases level <;> decide

mutual

/-- The layout of an expression is a reading of it, and nests as deep as `nesting` says. -/
theorem reads_layout (e : Expr) (h : Spanned e) (rest : List TokenKind) :
    Reads e (e.layout ++ rest) rest e.nesting := by
  cases e with
  | number n => exact .of_primary (.literal rfl) rfl
  | text s => exact .of_primary (.literal rfl) rfl
  | boolean b => exact .of_primary (.literal rfl) rfl
  | error e => exact .of_primary (.literal rfl) rfl
  | reference r => exact .of_primary (.reference (spelling_layout h)) rfl
  | unary op x =>
    have hx := reads_layout x (h.mono fun node hnode => List.mem_cons_of_mem _ hnode)
    have hsign : sign? op.token = some op := by cases op <;> rfl
    have hprec : (unary op x).precedence = signPrecedence := rfl
    refine .of_signed (.sign hsign (reading_signed hx rest)) ?_ fun hp => absurd (hprec ▸ hp) (by decide)
    intro level
    rw [hprec]
    cases level <;> decide
  | binary op l r =>
    exact reads_binary
      (reads_layout l (h.mono fun node hnode => List.mem_cons_of_mem _ (List.mem_append_left _ hnode)))
      (reads_layout r (h.mono fun node hnode => List.mem_cons_of_mem _ (List.mem_append_right _ hnode))) rest
  | call name args =>
    cases args with
    | nil => exact .of_primary .callNone rfl
    | cons e es =>
      have hargs := reads_arguments (e :: es) (List.cons_ne_nil _ _)
        (fun sheet r hr => h sheet r (List.mem_cons_of_mem _ hr)) rest
      refine .of_primary ?_ rfl
      rw [layout, nesting, List.cons_append, List.cons_append, List.append_assoc]
      exact .call hargs

theorem reads_arguments (es : List Expr) (hne : es ≠ [])
    (h : ∀ sheet r, .reference (.range sheet r) ∈ preorderAll es → AddressRange.spanning r.first r.last = r)
    (rest : List TokenKind) :
    Reading (.arguments es) (layoutArguments es ++ .rightParen :: rest) rest (nestingArguments es) := by
  cases es with
  | nil => exact absurd rfl hne
  | cons e es =>
    have he := reads_layout e fun sheet r hr => h sheet r (List.mem_append_left _ hr)
    cases es with
    | nil =>
      rw [layoutArguments, nestingArguments, nestingArguments, Nat.max_zero]
      exact .last (he _).expression
    | cons f fs =>
      have hfs := reads_arguments (f :: fs) (List.cons_ne_nil _ _)
        (fun sheet r hr => h sheet r (List.mem_append_right _ hr)) rest
      rw [layoutArguments, nestingArguments, List.append_assoc]
      exact .more (he _).expression hfs

end

end Expr

end Spreadsheet
