import Spreadsheet.Evaluation
import Spreadsheet.Proofs.Formula.Height

/-! # How deep an evaluation goes

An evaluation goes as deep as the expression is high, so any two bounds on the depth from there on give
the same value. A formula can be higher than the standard limits let an evaluation go. -/

namespace Spreadsheet

/-- The same setting, with another bound on the depth. -/
def Setting.withDepth (s : Setting) (depth : Nat) : Setting :=
  { s with limits := { s.limits with maxDepth := depth } }

namespace Expr
variable {s : Setting} {a b : Nat}

mutual

theorem evaluateAt_withDepth (depth : Nat) (e : Expr) (ha : depth + e.height ≤ a) (hb : depth + e.height ≤ b) :
    evaluateAt (s.withDepth a) depth e = evaluateAt (s.withDepth b) depth e := by
  have hna : ¬(s.withDepth a).limits.maxDepth < depth := Nat.not_lt.mpr (Nat.le_of_add_right_le ha)
  have hnb : ¬(s.withDepth b).limits.maxDepth < depth := Nat.not_lt.mpr (Nat.le_of_add_right_le hb)
  cases e with
  | number n => simp only [evaluateAt, hna, hnb]
  | text x => simp only [evaluateAt, hna, hnb]
  | boolean b => simp only [evaluateAt, hna, hnb]
  | error e => simp only [evaluateAt, hna, hnb]
  | reference r =>
    simp only [evaluateAt, hna, hnb]
    rfl
  | unary op x =>
    simp only [height] at ha hb
    have hx := evaluateAt_withDepth (depth + 1) x (by omega) (by omega)
    simp only [evaluateAt, hna, hnb, hx]
  | binary op l r =>
    simp only [height] at ha hb
    have hl := evaluateAt_withDepth (depth + 1) l (by omega) (by omega)
    have hr := evaluateAt_withDepth (depth + 1) r (by omega) (by omega)
    simp only [evaluateAt, hna, hnb, hl, hr]
  | call name args =>
    simp only [height] at ha hb
    have hlist := fun f => evaluateArguments_withDepth f (depth + 1) 0 args (by omega) (by omega)
    have hnth := evaluateNth_withDepth (depth + 1) args (by omega) (by omega)
    simp only [evaluateAt, hna, hnb, hlist, hnth]
    rfl

theorem evaluateArguments_withDepth (f : Callable) (depth index : Nat) (es : List Expr)
    (ha : depth + heightArguments es ≤ a + 1) (hb : depth + heightArguments es ≤ b + 1) :
    evaluateArguments (s.withDepth a) f depth index es = evaluateArguments (s.withDepth b) f depth index es := by
  cases es with
  | nil => simp only [evaluateArguments]
  | cons e es =>
    simp only [heightArguments] at ha hb
    have he := evaluateAt_withDepth depth e (by omega) (by omega)
    have hes := evaluateArguments_withDepth f depth (index + 1) es (by omega) (by omega)
    simp only [evaluateArguments, he, hes]

theorem evaluateNth_withDepth (depth : Nat) (es : List Expr) (ha : depth + heightArguments es ≤ a + 1)
    (hb : depth + heightArguments es ≤ b + 1) (index : Nat) :
    evaluateNth (s.withDepth a) depth es index = evaluateNth (s.withDepth b) depth es index := by
  cases es with
  | nil => simp only [evaluateNth]
  | cons e es =>
    simp only [heightArguments] at ha hb
    have he := evaluateAt_withDepth depth e (by omega) (by omega)
    have hes := evaluateNth_withDepth depth es (by omega) (by omega)
    cases index with
    | zero => simp only [evaluateNth, he]
    | succ index => simp only [evaluateNth, hes]

end

theorem evaluate_withDepth {e : Expr} (ha : e.height ≤ a) (hb : e.height ≤ b) :
    e.evaluate (s.withDepth a) = e.evaluate (s.withDepth b) := by
  have h : evaluateAt (s.withDepth a) 0 e = evaluateAt (s.withDepth b) 0 e :=
    evaluateAt_withDepth 0 e (by rwa [Nat.zero_add]) (by rwa [Nat.zero_add])
  rw [evaluate, evaluate, h]

/-! ### Expressions that are too deep -/

section Runs
variable {depth : Nat} {e : Expr}

/-- An operand that is too deep makes every sign before it an error. -/
theorem evaluateAt_signs_error {op : UnaryOp} {k : Nat}
    (h : evaluateAt s (depth + k) e = .ok (.value (.error .error))) :
    evaluateAt s depth (signs op e k) = .ok (.value (.error .error)) := by
  induction k generalizing depth with
  | zero => exact h
  | succ k ih =>
    have hx := @ih (depth + 1) (by rwa [Nat.add_assoc, Nat.add_comm 1])
    rw [signs, evaluateAt]
    split
    · rfl
    · rw [hx]
      rfl

theorem exists_evaluateAt_boolean (depth : Nat) (v : Bool) : ∃ w, evaluateAt s depth (boolean v) = .ok (.value w) := by
  rw [evaluateAt]
  split <;> exact ⟨_, rfl⟩

theorem evaluateAt_chained_error {op : BinaryOp} {k : Nat}
    (h : evaluateAt s (depth + k) e = .ok (.value (.error .error))) :
    evaluateAt s depth (chained op e k) = .ok (.value (.error .error)) := by
  induction k generalizing depth with
  | zero => exact h
  | succ k ih =>
    have hl := @ih (depth + 1) (by rwa [Nat.add_assoc, Nat.add_comm 1])
    obtain ⟨w, hw⟩ := exists_evaluateAt_boolean (s := s) (depth + 1) true
    rw [chained, evaluateAt]
    split
    · rfl
    · rw [hl, hw]
      rfl

/-- A run of plus signs leaves the value as it is. -/
theorem evaluateAt_signs_plus {k : Nat} {v : Value} (hdepth : depth + k ≤ s.limits.maxDepth)
    (h : evaluateAt s (depth + k) e = .ok (.value v)) : evaluateAt s depth (signs .plus e k) = .ok (.value v) := by
  induction k generalizing depth with
  | zero => exact h
  | succ k ih =>
    have hx := @ih (depth + 1) (by omega) (by rwa [Nat.add_assoc, Nat.add_comm 1])
    rw [signs, evaluateAt, if_neg (by omega)]
    have hplus : UnaryOp.plus.apply v = v := by
      unfold UnaryOp.apply
      split <;> rfl
    rw [hx]
    simp only [Argument.toValue, hplus]

/-- A run of `&` or `=` has a proper value if what it starts with has one. -/
theorem evaluateAt_chained {op : BinaryOp} (hop : op = .concat ∨ op = .equal) {k : Nat}
    (hdepth : depth + k ≤ s.limits.maxDepth)
    (h : ∃ v, v.isError = false ∧ evaluateAt s (depth + k) e = .ok (.value v)) :
    ∃ v, v.isError = false ∧ evaluateAt s depth (chained op e k) = .ok (.value v) := by
  induction k generalizing depth with
  | zero => exact h
  | succ k ih =>
    obtain ⟨v, hv, hl⟩ := @ih (depth + 1) (by omega) (by rwa [Nat.add_assoc, Nat.add_comm 1])
    have hr : evaluateAt s (depth + 1) (boolean true) = .ok (.value (.boolean true)) := by
      rw [evaluateAt, if_neg (by omega)]
    refine ⟨op.apply v (.boolean true), ?_, ?_⟩
    · cases v <;> rcases hop with rfl | rfl <;> first | rfl | cases hv
    · rw [chained, evaluateAt, if_neg (by omega), hl, hr]
      rfl

end Runs

/-! ### Formulas -/

/-- A formula is no higher than the square of its nesting allows, and an evaluation that may go as deep as
    the formula is high does not depend on how deep it may go. Where the nesting is small or counts the whole
    height, the standard limits let the evaluation go that deep. -/
theorem height_of_parse {text : String} {t : Expr} (h : Expr.parse text = .ok t) :
    t.height ≤ 2 * maxNesting ^ 2 - 2 ∧ t.height ≤ 2 * (t.nesting + 1) ^ 2 - 2 ∧
      (∀ (s : Setting) (a b : Nat), t.height ≤ a → t.height ≤ b →
        t.evaluate (s.withDepth a) = t.evaluate (s.withDepth b)) ∧
      (2 * (t.nesting + 1) ^ 2 - 2 ≤ maxNesting ∨ t.SingleLeft ∧ t.nesting ≤ maxNesting → t.height ≤ maxNesting ∧
        ∀ (s : Setting) (a : Nat), Limits.standard.maxDepth ≤ a →
          t.evaluate (s.withDepth a) = t.evaluate (s.withDepth Limits.standard.maxDepth)) := by
  have hquadratic := (Legible.of_parse h).height_le
  refine ⟨height_le_of_parse h, hquadratic, fun s a b => evaluate_withDepth, fun hcounted => ?_⟩
  have hheight : t.height ≤ maxNesting := by
    rcases hcounted with hsmall | ⟨hsingle, hnesting⟩
    · exact Nat.le_trans hquadratic hsmall
    · exact Nat.le_trans (height_le_nesting t hsingle) hnesting
  have hstandard : t.height ≤ Limits.standard.maxDepth := Nat.le_trans hheight (by decide)
  exact ⟨hheight, fun s a ha => evaluate_withDepth (Nat.le_trans hstandard ha) hstandard⟩

theorem height_of_parse_concat :
    ∃ t, Expr.parse "=TRUE&(FALSE=TRUE)" = .ok t ∧ t.height ≤ maxNesting ∧
      t.evaluate (Setting.withDepth ⟨.empty, fun _ => .empty, .atCell .empty ⟨0, 0, 0⟩, .standard⟩ 1000) =
        t.evaluate (Setting.withDepth ⟨.empty, fun _ => .empty, .atCell .empty ⟨0, 0, 0⟩, .standard⟩ 512) := by
  have h : Expr.parse "=TRUE&(FALSE=TRUE)" =
      .ok (binary .concat (boolean true) (binary .equal (boolean false) (boolean true))) := by cbv
  obtain ⟨hheight, hdepth⟩ := (height_of_parse h).2.2.2 (.inl (by decide))
  exact ⟨_, h, hheight, hdepth _ 1000 (by decide)⟩

/-! ### A formula that is too deep for the standard limits -/

/-- Plus signs before `TRUE`, and after it a run of `&` and one of `=`. -/
def runsOf (signCount concatCount equalCount : Nat) : Expr :=
  chained .equal (chained .concat (signs .plus (boolean true) signCount) concatCount) equalCount

def textOfRuns (signCount concatCount equalCount : Nat) : String :=
  "=" ++ String.ofList (List.replicate signCount '+') ++ "TRUE" ++ String.join (List.replicate concatCount "&TRUE") ++
    String.join (List.replicate equalCount "=TRUE")

section RunsOf
variable (i j k : Nat)

theorem signPrecedence_le_boolean : signPrecedence ≤ (boolean true).precedence := by decide

theorem concat_lt_signs : BinaryOp.concat.precedence < (signs .plus (boolean true) i).precedence :=
  Nat.lt_of_lt_of_le (by decide) (signPrecedence_le_signs signPrecedence_le_boolean i)

theorem equal_lt_chained :
    BinaryOp.equal.precedence < (chained .concat (signs .plus (boolean true) i) j).precedence :=
  precedence_chained (Nat.le_of_lt (concat_lt_signs i)) j

theorem toList_textOfRuns : (textOfRuns i j k).toList = '=' :: writtenChars (runsOf i j k).layout := by
  have hplus : UnaryOp.plus.token.written.toList = ['+'] := rfl
  have htrue : writtenChars (boolean true).layout = "TRUE".toList := by decide +kernel
  have hconcat : writtenChars [BinaryOp.concat.token, .boolean true] = "&TRUE".toList := by decide +kernel
  have hequal : writtenChars [BinaryOp.equal.token, .boolean true] = "=TRUE".toList := by decide +kernel
  rw [runsOf, layout_chained rfl (Nat.le_of_lt (equal_lt_chained i j)),
    layout_chained rfl (Nat.le_of_lt (concat_lt_signs i)), writtenChars_append, writtenChars_append,
    writtenChars_signs signPrecedence_le_boolean hplus, writtenChars_flatten_replicate,
    writtenChars_flatten_replicate, htrue, hconcat, hequal]
  simp [textOfRuns, List.flatMap_def]

theorem nesting_runsOf : (runsOf i j k).nesting = max (max i j) k := by
  have hleaf : (boolean true).nesting = 0 := rfl
  rw [runsOf, nesting_chained rfl (equal_lt_chained i j), nesting_chained rfl (concat_lt_signs i),
    nesting_signs signPrecedence_le_boolean, hleaf, Nat.zero_add]

theorem height_runsOf : (runsOf i j k).height = i + j + k := by
  have hleaf : (boolean true).height = 0 := rfl
  rw [runsOf, height_chained, height_chained, height_signs, hleaf, Nat.zero_add]

theorem parse_textOfRuns (h : max (max i j) k < maxNesting) : Expr.parse (textOfRuns i j k) = .ok (runsOf i j k) := by
  have hlegible : Legible (runsOf i j k) := (((Legible.boolean true).signs i).chained j).chained k
  have hslash : Slashless (runsOf i j k) :=
    (((Slashless.boolean true).signs i).chained (by decide) j).chained (by decide) k
  refine (hlegible.reading.parse hlegible.lexical (toList_textOfRuns i j k) (noErrorBeforeSlash_of_forall hslash)).1 ?_
  rw [nesting_runsOf]
  exact h

variable {i j k}

theorem evaluate_runsOf_error (h : s.limits.maxDepth < i + j + k) : (runsOf i j k).evaluate s = .ok (.error .error) := by
  have hleaf : evaluateAt s (0 + k + j + i) (boolean true) = .ok (.value (.error .error)) := by
    rw [evaluateAt, if_pos (by omega)]
  have hruns : evaluateAt s 0 (runsOf i j k) = .ok (.value (.error .error)) :=
    evaluateAt_chained_error (evaluateAt_chained_error (evaluateAt_signs_error hleaf))
  rw [evaluate, hruns]
  rfl

theorem exists_evaluate_runsOf (h : i + j + k ≤ s.limits.maxDepth) :
    ∃ v, v.isError = false ∧ (runsOf i j k).evaluate s = .ok v := by
  have hleaf : evaluateAt s (0 + k + j + i) (boolean true) = .ok (.value (.boolean true)) := by
    rw [evaluateAt, if_neg (by omega)]
  have hsigns := evaluateAt_signs_plus (by omega) hleaf
  obtain ⟨v, hv, hruns⟩ := evaluateAt_chained (.inr rfl) (by omega)
    (evaluateAt_chained (.inl rfl) (by omega) ⟨_, rfl, hsigns⟩)
  exact ⟨v, hv, by rw [evaluate, runsOf, hruns]; rfl⟩

end RunsOf

/-- A formula can be higher than it may nest, and too high for the standard limits. -/
theorem exists_height_gt :
    ∃ t, Expr.parse (textOfRuns 255 255 3) = .ok t ∧ maxNesting < t.height ∧
      ∀ s : Setting, t.evaluate (s.withDepth Limits.standard.maxDepth) = .ok (.error .error) ∧
        ∃ v, v.isError = false ∧ t.evaluate (s.withDepth (Limits.standard.maxDepth + 1)) = .ok v := by
  have hheight := height_runsOf 255 255 3
  refine ⟨_, parse_textOfRuns 255 255 3 (by decide), by rw [hheight]; decide, fun s => ⟨?_, ?_⟩⟩
  · exact evaluate_runsOf_error (Nat.lt_succ_self 512)
  · exact exists_evaluate_runsOf (Nat.le_refl 513)

end Expr

end Spreadsheet
