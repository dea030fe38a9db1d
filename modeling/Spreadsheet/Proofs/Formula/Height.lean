import Spreadsheet.Proofs.Formula.Canonical

/-! # How deep the tree of a formula is

A phrase that nests `n` deep is a tree of height less than `2 * n ^ 2` (`Parse.Reading.within`): a run of
operators gives its nesting back when it ends, while it stays the left operand of the next operator. -/

namespace Spreadsheet

open Parse

namespace Expr

mutual

/-- The number of edges on the longest path from the root to a leaf. -/
def height : Expr → Nat
  | unary _ x => height x + 1
  | binary _ l r => max (height l) (height r) + 1
  | call _ args => heightArguments args
  | _ => 0

/-- The height of a node with the given arguments. -/
def heightArguments : List Expr → Nat
  | [] => 0
  | e :: es => max (height e + 1) (heightArguments es)

end

end Expr

/-! ### The nesting bounds the height -/

/-- The height that phrases nesting `n` deep have at most, after `levels` levels of operators. -/
def heightBound (levels n : Nat) : Nat :=
  2 * n ^ 2 + levels * n

theorem heightBound_mono {levels m n : Nat} (h : m ≤ n) : heightBound levels m ≤ heightBound levels n := by
  unfold heightBound
  gcongr

theorem heightBound_succ (levels n : Nat) : heightBound (levels + 1) n = heightBound levels n + n := by
  unfold heightBound
  ring

theorem heightBound_zero (n : Nat) : heightBound 0 n = 2 * n ^ 2 := by
  simp [heightBound]

/-- A phrase that nests `n` deep is no higher than this. -/
def Parse.Phrase.Within (n : Nat) : Phrase → Prop
  | expression e => e.height + 2 ≤ heightBound 0 n
  | chain level e => e.height ≤ heightBound level.rank n
  | run level k e => e.height ≤ heightBound (level.rank - 1) n + k ∧ k ≤ n
  | operand level e => e.height ≤ heightBound (level.rank - 1) n
  | signed e | power e => e.height ≤ heightBound 0 n
  | primary e => e.height ≤ heightBound 0 n - 1
  | arguments es => Expr.heightArguments es + 1 ≤ heightBound 0 n

theorem heightBound_zero_succ (n : Nat) : heightBound 0 (n + 1) = heightBound 0 n + 4 * n + 2 := by
  simp only [heightBound_zero]
  ring

theorem Parse.Level.rank_of_tighter? {a b : Level} (h : a.tighter? = some b) : a.rank - 1 = b.rank := by
  cases a <;> cases h <;> rfl

theorem Parse.Level.rank_of_tightest {a : Level} (h : a.tighter? = none) : a.rank - 1 = 0 := by
  cases a <;> first | rfl | cases h

theorem Parse.Level.heightBound_rank (level : Level) (n : Nat) :
    heightBound level.rank n = heightBound (level.rank - 1) n + n := by
  cases level <;> exact heightBound_succ _ n

theorem Parse.Reading.within {φ : Phrase} {ks rest : List TokenKind} {n : Nat} (h : Reading φ ks rest n) :
    φ.Within n := by
  induction h with
  | @expression e ts rest n _ ih =>
    have hchain : heightBound Level.comparison.rank n = heightBound 0 n + 4 * n := by simp [heightBound, Level.rank]
    have hsucc := heightBound_zero_succ n
    simp only [Phrase.Within] at ih ⊢
    omega
  | @chain level k e ts rest n _ ih =>
    obtain ⟨he, hk⟩ := ih
    have hrank := level.heightBound_rank n
    simp only [Phrase.Within]
    omega
  | @first level e ts rest n _ ih => exact ⟨ih, Nat.zero_le n⟩
  | @next level k l r ts t op mid rest m n _ _ _ ihl ihr =>
    -- each operator lifts the operands before it by one
    obtain ⟨hl, hk⟩ := ihl
    have hm : heightBound (level.rank - 1) m ≤ heightBound (level.rank - 1) (max m (k + 1 + n)) :=
      heightBound_mono (Nat.le_max_left ..)
    have hn : heightBound (level.rank - 1) n ≤ heightBound (level.rank - 1) (max m (k + 1 + n)) :=
      heightBound_mono (by omega)
    simp only [Phrase.Within, Expr.height] at ihr ⊢
    omega
  | tighter ht _ ih =>
    rw [Phrase.Within, Level.rank_of_tighter? ht]
    exact ih
  | tightest ht _ ih =>
    rw [Phrase.Within, Level.rank_of_tightest ht]
    exact ih
  | @sign t op x ts rest n _ _ ih =>
    have hsucc := heightBound_zero_succ n
    simp only [Phrase.Within, Expr.height] at ih ⊢
    omega
  | unsigned _ ih => exact ih
  | @exponent b x ts mid rest m n _ _ ihb ihx =>
    have hsucc := heightBound_zero_succ n
    have hm : heightBound 0 m ≤ heightBound 0 (max m (n + 1)) := heightBound_mono (Nat.le_max_left ..)
    have hn : heightBound 0 (n + 1) ≤ heightBound 0 (max m (n + 1)) := heightBound_mono (Nat.le_max_right ..)
    simp only [Phrase.Within, Expr.height] at ihb ihx ⊢
    omega
  | base _ ih => exact Nat.le_trans ih (Nat.sub_le ..)
  | @literal t e rest h =>
    have hheight : e.height = 0 := by cases t <;> cases h <;> rfl
    rw [Phrase.Within, hheight]
    exact Nat.zero_le _
  | reference => exact Nat.zero_le _
  | parenthesized _ ih =>
    simp only [Phrase.Within] at ih ⊢
    omega
  | callNone => exact Nat.zero_le _
  | call _ ih =>
    simp only [Phrase.Within, Expr.height] at ih ⊢
    omega
  | last _ ih =>
    simp only [Phrase.Within, Expr.heightArguments] at ih ⊢
    omega
  | @more e es ts mid rest m n _ _ ihe ihes =>
    have hm : heightBound 0 m ≤ heightBound 0 (max m n) := heightBound_mono (Nat.le_max_left ..)
    have hn : heightBound 0 n ≤ heightBound 0 (max m n) := heightBound_mono (Nat.le_max_right ..)
    simp only [Phrase.Within, Expr.heightArguments] at ihe ihes ⊢
    omega

namespace Expr

theorem height_le_of_reading {t : Expr} {ks rest : List TokenKind} {n : Nat} (h : Reading (.expression t) ks rest n) :
    t.height ≤ 2 * n ^ 2 - 2 := by
  have hwithin : t.height + 2 ≤ heightBound 0 n := h.within
  rw [heightBound_zero] at hwithin
  omega

theorem Legible.height_le {t : Expr} (h : Legible t) : t.height ≤ 2 * (t.nesting + 1) ^ 2 - 2 :=
  height_le_of_reading h.reading

theorem height_le_of_parse {s : String} {t : Expr} (h : Expr.parse s = .ok t) : t.height ≤ 2 * maxNesting ^ 2 - 2 := by
  obtain ⟨ts, rest, n, -, hn, hread⟩ := exists_reading_of_parse h
  have hheight := height_le_of_reading hread
  have hmono : n ^ 2 ≤ maxNesting ^ 2 := Nat.pow_le_pow_left hn 2
  omega

/-! ### Formulas whose height the nesting counts -/

/-- Of the operands of a run only the last one has operands of its own, and no base of a power has. -/
def SingleLeft (e : Expr) : Prop :=
  ∀ op l r, binary op l r ∈ preorder e → l.height = operators op.precedence l

theorem SingleLeft.mono {e x : Expr} (h : SingleLeft e) (hsub : ∀ node ∈ preorder x, node ∈ preorder e) :
    SingleLeft x :=
  fun op l r hnode => h op l r (hsub _ hnode)

mutual

theorem height_le_nesting (e : Expr) (h : SingleLeft e) : e.height ≤ e.nesting := by
  cases e with
  | unary op x =>
    have hx := height_le_nesting x (h.mono fun node hnode => List.mem_cons_of_mem _ hnode)
    rw [height, nesting]
    unfold nestedIf
    split <;> omega
  | binary op l r =>
    -- what the operators before the last operand count is how far they lift the first one
    have hl : l.height = operators op.precedence l := h op l r (mem_preorder_self _)
    have hr := height_le_nesting r
      (h.mono fun node hnode => List.mem_cons_of_mem _ (List.mem_append_right _ hnode))
    have hnested : r.nesting ≤ nestedIf (parenthesizedRight op r) r.nesting := by
      unfold nestedIf
      split <;> omega
    rw [height, nesting]
    omega
  | call name args =>
    rw [height, nesting]
    exact heightArguments_le_nesting args fun e he => h.mono fun node hnode =>
      List.mem_cons_of_mem _ (mem_preorderAll.mpr ⟨e, he, hnode⟩)
  | _ => exact Nat.zero_le _

theorem heightArguments_le_nesting (es : List Expr) (h : ∀ e ∈ es, SingleLeft e) :
    heightArguments es ≤ nestingArguments es := by
  cases es with
  | nil => exact Nat.zero_le _
  | cons e es =>
    obtain ⟨he, hes⟩ := List.forall_mem_cons.mp h
    have hhead := height_le_nesting e he
    have htail := heightArguments_le_nesting es hes
    rw [heightArguments, nestingArguments]
    omega

end

/-! ### The bound is reached -/

theorem height_signs (op : UnaryOp) (e : Expr) (k : Nat) : (signs op e k).height = e.height + k := by
  induction k with
  | zero => rfl
  | succ k ih => rw [signs, height, ih, Nat.add_assoc]

/-- An expression that divides nowhere. -/
def Slashless (e : Expr) : Prop :=
  ∀ k ∈ e.layout, k ≠ .slash

theorem Slashless.boolean (b : Bool) : Slashless (.boolean b) := by
  simp [Slashless, layout]

theorem Slashless.unary {op : UnaryOp} {x : Expr} (h : Slashless x) : Slashless (.unary op x) :=
  forall_mem_layout_unary (P := (· ≠ .slash)) nofun nofun (by cases op <;> exact nofun) h

theorem Slashless.signs {op : UnaryOp} {e : Expr} (h : Slashless e) (k : Nat) : Slashless (signs op e k) := by
  induction k with
  | zero => exact h
  | succ k ih => exact ih.unary

theorem Slashless.binary {op : BinaryOp} {l r : Expr} (hl : Slashless l) (hop : op ≠ .divide) (hr : Slashless r) :
    Slashless (.binary op l r) := by
  have htoken : op.token ≠ .slash := by
    intro h
    cases op <;> first | exact hop rfl | cases h
  exact forall_mem_layout_binary (P := (· ≠ .slash)) nofun nofun htoken hl hr

theorem Slashless.call {name : String} {es : List Expr} (h : ∀ e ∈ es, Slashless e) : Slashless (.call name es) :=
  forall_mem_layout_call (P := (· ≠ .slash)) nofun nofun nofun nofun h

/-- A run of `k` operators after an expression. -/
def chained (op : BinaryOp) (e : Expr) : Nat → Expr
  | 0 => e
  | k + 1 => binary op (chained op e k) (boolean true)

section Chained
variable {op : BinaryOp} {level : Level} {e : Expr}

theorem height_chained (k : Nat) : (chained op e k).height = e.height + k := by
  induction k with
  | zero => rfl
  | succ k ih => simp [chained, height, ih, Nat.add_assoc]

theorem Legible.chained (h : Legible e) (k : Nat) : Legible (chained op e k) := by
  induction k with
  | zero => exact h
  | succ k ih => exact ih.binary (.boolean true)

theorem Slashless.chained (h : Slashless e) (hop : op ≠ .divide) (k : Nat) : Slashless (chained op e k) := by
  induction k with
  | zero => exact h
  | succ k ih => exact ih.binary hop (.boolean true)

theorem precedence_chained (h : op.precedence ≤ e.precedence) (k : Nat) :
    op.precedence ≤ (chained op e k).precedence := by
  cases k with
  | zero => exact h
  | succ k => exact Nat.le_refl op.precedence

theorem parenthesizedRight_boolean (op : BinaryOp) (b : Bool) : parenthesizedRight op (boolean b) = false := by
  cases op <;> rfl

section Left
variable (hop : op.level? = some level)
include hop

theorem parenthesizedLeft_chained (h : op.precedence ≤ e.precedence) (k : Nat) :
    parenthesizedLeft op (chained op e k) = false := by
  simp [parenthesizedLeft, (BinaryOp.precedence_of_level? hop).2, precedence_chained h k]

theorem layout_chained (h : op.precedence ≤ e.precedence) (k : Nat) :
    (chained op e k).layout = e.layout ++ (List.replicate k [op.token, .boolean true]).flatten := by
  induction k with
  | zero => exact (List.append_nil _).symm
  | succ k ih =>
    rw [chained, layout, parenthesizedLeft_chained hop h, parenthesizedRight_boolean]
    simp [parenthesizedIf, layout, ih, List.replicate_succ']

theorem operators_chained (h : op.precedence < e.precedence) (k : Nat) :
    operators op.precedence (chained op e k) = k := by
  induction k with
  | zero => exact operators_eq_zero (Nat.ne_of_gt h)
  | succ k ih => rw [chained, operators, if_pos ⟨rfl, (BinaryOp.precedence_of_level? hop).2⟩, ih]

theorem nesting_chained (h : op.precedence < e.precedence) (k : Nat) : (chained op e k).nesting = max e.nesting k := by
  induction k with
  | zero => exact (Nat.max_zero _).symm
  | succ k ih =>
    rw [chained, nesting, parenthesizedLeft_chained hop (Nat.le_of_lt h), parenthesizedRight_boolean,
      operators_chained hop h, ih]
    simp only [nestedIf, nesting, Bool.false_eq_true, if_false]
    omega

end Left

end Chained

/-- The operators of four runs, each looser than the one before. -/
def runs (e : Expr) (k : Nat) : Expr :=
  chained .equal (chained .concat (chained .add (chained .multiply e k) k) k) k

/-- A call and a power around an expression. -/
def applied (e : Expr) : Expr :=
  binary .power (call "F" [e]) (boolean true)

/-- The tallest formulas: each call, power and run of operators nests as deep as it may. -/
def tower : Nat → Expr
  | 0 => boolean true
  | n + 1 => runs (applied (tower n)) (n + 1)

theorem height_tower (n : Nat) : (tower n).height + 2 = heightBound 0 (n + 1) := by
  induction n with
  | zero => rfl
  | succ n ih =>
    have happlied : (applied (tower n)).height = (tower n).height + 2 := by simp [applied, height, heightArguments]
    rw [heightBound_zero_succ, ← ih, tower, runs, height_chained, height_chained, height_chained, height_chained, happlied]
    omega

theorem nesting_runs {e : Expr} (h : BinaryOp.multiply.precedence < e.precedence) (k : Nat) :
    (runs e k).nesting = max e.nesting k := by
  have hadd : BinaryOp.add.precedence < (chained .multiply e k).precedence := precedence_chained (Nat.le_of_lt h) k
  have hconcat : BinaryOp.concat.precedence < (chained .add (chained .multiply e k) k).precedence :=
    precedence_chained (Nat.le_of_lt hadd) k
  have hequal : BinaryOp.equal.precedence < (chained .concat (chained .add (chained .multiply e k) k) k).precedence :=
    precedence_chained (Nat.le_of_lt hconcat) k
  rw [runs, nesting_chained rfl hequal, nesting_chained rfl hconcat, nesting_chained rfl hadd, nesting_chained rfl h]
  simp

theorem nesting_tower (n : Nat) : (tower n).nesting = n := by
  induction n with
  | zero => rfl
  | succ n ih =>
    have happlied : (applied (tower n)).nesting = n + 1 := by
      have hleft : parenthesizedLeft .power (call "F" [tower n]) = false := rfl
      have hright : parenthesizedRight .power (boolean true) = false := rfl
      rw [applied, nesting, hleft, hright, nesting, nestingArguments, nestingArguments, ih]
      simp [nestedIf, operators, nesting]
    have hpower : BinaryOp.multiply.precedence < (applied (tower n)).precedence := Nat.lt_add_of_pos_right Nat.two_pos
    rw [tower, nesting_runs hpower, happlied, Nat.max_self]

theorem Legible.tower (n : Nat) : Legible (tower n) := by
  induction n with
  | zero => exact .boolean true
  | succ n ih =>
    have hname : (TokenKind.identifier "F").Lexical := ⟨'F', [], rfl, rfl, by simp⟩
    have happlied : Legible (applied (Expr.tower n)) :=
      .binary (.call hname (List.forall_mem_singleton.mpr ih)) (.boolean true)
    exact (((happlied.chained _).chained _).chained _).chained _

theorem Slashless.tower (n : Nat) : Slashless (tower n) := by
  induction n with
  | zero => exact .boolean true
  | succ n ih =>
    have hcall : Slashless (.call "F" [Expr.tower n]) := .call (List.forall_mem_singleton.mpr ih)
    have happlied : Slashless (applied (Expr.tower n)) := hcall.binary nofun (.boolean true)
    exact (((happlied.chained (by decide) _).chained (by decide) _).chained (by decide) _).chained (by decide) _

theorem exists_parse_height : ∃ s t, Expr.parse s = .ok t ∧ t.height = 2 * maxNesting ^ 2 - 2 := by
  have h := Legible.tower (maxNesting - 1)
  have hparse := h.reading.parse h.lexical (toList_toText _) (noErrorBeforeSlash_of_forall (Slashless.tower _))
  refine ⟨_, _, hparse.1 ?_, ?_⟩
  · rw [nesting_tower]
    decide
  · have hheight := height_tower (maxNesting - 1)
    rw [heightBound_zero] at hheight
    exact Nat.eq_sub_of_add_eq hheight

/-- The greatest height of a formula is quadratic in the nesting that is allowed. -/
theorem isGreatest_height : IsGreatest {n | ∃ s t, Expr.parse s = .ok t ∧ t.height = n} (2 * maxNesting ^ 2 - 2) := by
  refine ⟨exists_parse_height, ?_⟩
  rintro n ⟨s, t, hparse, rfl⟩
  exact height_le_of_parse hparse

end Expr

end Spreadsheet
