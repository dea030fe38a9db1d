import Spreadsheet.Formula.Descent
import Spreadsheet.Proofs.Formula.Grammar

/-! # What the descent with a cursor does

From every place and depth it ends, and with what the descent over the tokens that are left gives (`Ends`). That
descent is what the induction follows. On the way the cursor stays within the list, and the depth goes no more than one
above the limit; it is taken back to where it was, except that a failure may leave it higher. -/

namespace Spreadsheet.Descent
open Parse

variable {tokens ts : List Token} {r r' : Reader} {depth n : Nat} {α β : Type}

/-! ### Readers -/

/-- A mark within the list, and not deeper than a failure to go deeper leaves it. -/
structure Mark.Bounded (tokens : List Token) (m : Mark) : Prop where
  pos_le : m.pos ≤ tokens.length
  depth_le : m.depth ≤ maxNesting + 1

/-- All marks of the reader are bounded. -/
def Reader.Steady (tokens : List Token) (r : Reader) : Prop :=
  ∀ m ∈ r.toMark :: r.trail, m.Bounded tokens

theorem Reader.Steady.bounded (h : r.Steady tokens) : r.toMark.Bounded tokens :=
  h _ List.mem_cons_self

theorem Reader.Steady.moveTo (h : r.Steady tokens) {m : Mark} (hpos : m.pos ≤ tokens.length)
    (hdepth : m.depth ≤ maxNesting + 1) : (r.moveTo m).Steady tokens :=
  List.forall_mem_cons.mpr ⟨⟨hpos, hdepth⟩, h⟩

/-- The reader is in front of the tokens `ts` at a depth from which any function may be called. -/
structure Stands (tokens : List Token) (r : Reader) (depth : Nat) (ts : List Token) : Prop where
  steady : r.Steady tokens
  rest : tokens.drop r.pos = ts
  depth_eq : r.depth = depth
  depth_le : depth ≤ maxNesting

theorem kindAt_eq {pos : Nat} (h : tokens.drop pos = ts) : kindAt tokens pos = Parse.current ts := by
  have hhead : tokens[pos]? = ts.head? := by rw [← h, List.head?_drop]
  rw [kindAt, hhead]
  cases ts <;> rfl

theorem byteAt_eq {pos : Nat} (h : tokens.drop pos = ts) :
    byteAt tokens pos = Parse.position (lastPosition tokens) ts := by
  have hhead : tokens[pos]? = ts.head? := by rw [← h, List.head?_drop]
  rw [byteAt, hhead]
  cases ts <;> rfl

/-! ### Running actions -/

theorem run_consume : ((consume tokens).run r).run =
    some (.ok (kindAt tokens r.pos, if r.pos < tokens.length then r.moveTo ⟨r.pos + 1, r.depth⟩ else r)) := by
  unfold consume
  show ExceptT.run (StateT.run (if _ then _ else _) _) = _
  split <;> rfl

theorem run_enter : ((enter tokens).run r).run =
    some (.ok (if maxNesting < r.depth + 1 then
        .error ⟨.tooDeep, byteAt tokens r.pos, s!"expression nested deeper than {maxNesting} levels"⟩
      else .ok (), r.moveTo ⟨r.pos, r.depth + 1⟩)) := by
  unfold enter
  show ExceptT.run (StateT.run (if _ then _ else _) _) = _
  split <;> rfl

theorem run_leave (h : n ≤ r.depth) : ((leave n).run r).run = some (.ok ((), r.moveTo ⟨r.pos, r.depth - n⟩)) := by
  unfold leave
  show ExceptT.run (StateT.run (if _ then _ else _) _) = _
  rw [if_neg (Nat.not_lt.mpr h)]
  rfl

/-- The action ends, with an answer and a reader for which `Q` holds. -/
def Meets (a : Action α) (r : Reader) (Q : α → Reader → Prop) : Prop :=
  ∃ x r', (a.run r).run = some (.ok (x, r')) ∧ Q x r'

section Meets
variable {a : Action α} {Q : β → Reader → Prop}

theorem Meets.pure {x : β} (h : Q x r) : Meets (pure x) r Q :=
  ⟨x, r, rfl, h⟩

theorem Meets.bind {f : α → Action β} {P : α → Reader → Prop} (h : Meets a r P)
    (hf : ∀ x r', P x r' → Meets (f x) r' Q) : Meets (a >>= f) r Q := by
  obtain ⟨x, r', hrun, hP⟩ := h
  obtain ⟨y, r'', hrun', hQ⟩ := hf x r' hP
  refine ⟨y, r'', ?_, hQ⟩
  rw [StateT.run_bind, ExceptT.run_bind, hrun]
  exact hrun'

theorem Meets.current {f : TokenKind → Action β} (h : Stands tokens r depth ts)
    (hf : Meets (f (Parse.current ts)) r Q) : Meets (current tokens >>= f) r Q :=
  .bind (P := fun x r' => x = Parse.current ts ∧ r' = r) ⟨_, _, rfl, kindAt_eq h.rest, rfl⟩
    (by rintro _ _ ⟨rfl, rfl⟩; exact hf)

theorem Meets.position {f : Nat → Action β} (h : Stands tokens r depth ts)
    (hf : Meets (f (Parse.position (lastPosition tokens) ts)) r Q) : Meets (position tokens >>= f) r Q :=
  .bind (P := fun x r' => x = Parse.position (lastPosition tokens) ts ∧ r' = r) ⟨_, _, rfl, byteAt_eq h.rest, rfl⟩
    (by rintro _ _ ⟨rfl, rfl⟩; exact hf)

theorem Meets.consume_cons {f : TokenKind → Action β} {t : Token} (h : Stands tokens r depth (t :: ts))
    (hf : ∀ r', Stands tokens r' depth ts → Meets (f t.kind) r' Q) : Meets (consume tokens >>= f) r Q := by
  have hlt : r.pos < tokens.length := Nat.lt_of_not_le fun hle =>
    List.cons_ne_nil t ts (h.rest.symm.trans (List.drop_eq_nil_iff.mpr hle))
  have hrest : tokens.drop (r.pos + 1) = ts := by
    rw [← List.drop_drop, h.rest]
    rfl
  refine .bind ⟨_, _, run_consume, rfl, rfl⟩ (P := fun x r' => x = kindAt tokens r.pos ∧ r' = _) ?_
  rintro _ _ ⟨rfl, rfl⟩
  rw [if_pos hlt, kindAt_eq h.rest]
  exact hf _ ⟨h.steady.moveTo hlt h.steady.bounded.depth_le, hrest, h.depth_eq, h.depth_le⟩

theorem Meets.consume_nil {f : TokenKind → Action β} (h : Stands tokens r depth [])
    (hf : Meets (f .stop) r Q) : Meets (consume tokens >>= f) r Q := by
  have hge : ¬r.pos < tokens.length := Nat.not_lt.mpr (List.drop_eq_nil_iff.mp h.rest)
  refine .bind ⟨_, _, run_consume, rfl, rfl⟩ (P := fun x r' => x = kindAt tokens r.pos ∧ r' = _) ?_
  rintro _ _ ⟨rfl, rfl⟩
  rw [if_neg hge, kindAt_eq h.rest]
  exact hf

theorem Meets.enter {f : Except Report Unit → Action β} (h : Stands tokens r depth ts)
    (hok : ¬maxNesting ≤ depth → ∀ r', Stands tokens r' (depth + 1) ts → Meets (f (.ok ())) r' Q)
    (hdeep : maxNesting ≤ depth → ∀ r', r'.Steady tokens → depth < r'.depth →
      Meets (f (.error (ParseError.report ⟨.tooDeep, Parse.position (lastPosition tokens) ts⟩))) r' Q) :
    Meets (enter tokens >>= f) r Q := by
  obtain ⟨hsteady, hrest, rfl, hdepth⟩ := h
  have hmoved : (r.moveTo ⟨r.pos, r.depth + 1⟩).Steady tokens :=
    hsteady.moveTo hsteady.bounded.pos_le (Nat.succ_le_succ hdepth)
  refine .bind ⟨_, _, run_enter, rfl, rfl⟩ (P := fun x r' => x = _ ∧ r' = r.moveTo ⟨r.pos, r.depth + 1⟩) ?_
  rintro _ _ ⟨rfl, rfl⟩
  by_cases hle : maxNesting ≤ r.depth
  · rw [if_pos (Nat.lt_succ_of_le hle), byteAt_eq hrest]
    exact hdeep hle _ hmoved (Nat.lt_succ_self _)
  · rw [if_neg (fun hlt => hle (Nat.le_of_lt_succ hlt))]
    exact hok hle _ ⟨hmoved, hrest, rfl, Nat.lt_of_not_le hle⟩

theorem Meets.leave {f : Unit → Action β} (h : r.Steady tokens) (hn : n ≤ r.depth)
    (hf : ∀ r', r'.Steady tokens → r'.pos = r.pos → r'.depth + n = r.depth → Meets (f ()) r' Q) :
    Meets (leave n >>= f) r Q := by
  refine .bind ⟨_, _, run_leave hn, rfl⟩ (P := fun _ r' => r' = _) ?_
  rintro _ _ rfl
  have hdepth : r.depth - n ≤ maxNesting + 1 := Nat.le_trans (Nat.sub_le _ _) h.bounded.depth_le
  exact hf _ (h.moveTo h.bounded.pos_le hdepth) rfl (Nat.sub_add_cancel hn)

end Meets

/-! ### Calls -/

/-- What was read, and the tokens left over. -/
def outcome (parsed : Except ParseError (Parsed α ts)) : Except ParseError (α × List Token) :=
  parsed.map fun p => (p.value, p.rest)

/-- The end of a call at a given depth. One that succeeds is back at that depth, one that fails is not below it. -/
inductive Ends (tokens : List Token) (depth : Nat) :
    Except ParseError (α × List Token) → Except Report α → Reader → Prop where
  | ok {v : α} {rest : List Token} {r : Reader} (hsteady : r.Steady tokens) (hrest : tokens.drop r.pos = rest)
      (hdepth : r.depth = depth) : Ends tokens depth (.ok (v, rest)) (.ok v) r
  | error {e : ParseError} {r : Reader} (hsteady : r.Steady tokens) (hdepth : depth ≤ r.depth) :
      Ends tokens depth (.error e) (.error e.report) r

/-- The reader at the end of a call that succeeds. -/
theorem Stands.ends (h : Stands tokens r depth ts) (v : α) : Ends tokens depth (.ok (v, ts)) (.ok v) r :=
  .ok h.steady h.rest h.depth_eq

theorem Stands.fails (h : Stands tokens r depth ts) (e : ParseError) :
    Ends (α := α) tokens depth (.error e) (.error e.report) r :=
  .error h.steady (h.depth_eq ▸ Nat.le_refl _)

theorem Ends.map {result : Except ParseError (α × List Token)} {x : Except Report α} (h : Ends tokens depth result x r)
    (f : α → β) : Ends tokens depth (result.map fun p => (f p.1, p.2)) (x.map f) r := by
  cases h with
  | ok hsteady hrest hdepth => exact .ok hsteady hrest hdepth
  | error hsteady hdepth => exact .error hsteady hdepth

section Calls
variable {a : Action (Except Report α)} {f : Except Report α → Action β} {Q : β → Reader → Prop}
  {v : α} {e : ParseError} {result : Except ParseError (α × List Token)}

theorem Meets.call_ok (h : Meets a r (Ends tokens depth (.ok (v, ts)))) (hdepth : depth ≤ maxNesting)
    (hf : ∀ r', Stands tokens r' depth ts → Meets (f (.ok v)) r' Q) : Meets (a >>= f) r Q :=
  h.bind fun x r' hx => by
    cases hx with
    | ok hsteady hrest heq => exact hf r' ⟨hsteady, hrest, heq, hdepth⟩

theorem Meets.call_error (h : Meets a r (Ends tokens depth (.error e)))
    (hf : ∀ r', r'.Steady tokens → depth ≤ r'.depth → Meets (f (.error e.report)) r' Q) : Meets (a >>= f) r Q :=
  h.bind fun x r' hx => by
    cases hx with
    | error hsteady hle => exact hf r' hsteady hle

/-- The depth that was raised for a call is taken back after it, whatever its end. -/
theorem Meets.call_leave (h : Meets a r (Ends tokens (depth + n) result))
    (hf : ∀ x r', Ends tokens depth result x r' → Meets (f x) r' Q) :
    Meets (a >>= fun x => Descent.leave n >>= fun _ => f x) r Q :=
  h.bind fun x r' hx => by
    cases hx with
    | ok hsteady hrest hdepth =>
      refine .leave hsteady (hdepth ▸ Nat.le_add_left n depth) fun r'' hsteady' hpos hdepth' =>
        hf _ _ (.ok hsteady' ?_ ?_)
      · rw [hpos, hrest]
      · exact Nat.add_right_cancel (hdepth'.trans hdepth)
    | error hsteady hdepth =>
      refine .leave hsteady (Nat.le_trans (Nat.le_add_left n depth) hdepth) fun r'' hsteady' _ hdepth' =>
        hf _ _ (.error hsteady' ?_)
      exact Nat.le_of_add_le_add_right (hdepth' ▸ hdepth)

end Calls

/-! ### Errors -/

theorem rangeEndError_eq (position : Nat) (found : TokenKind) :
    rangeEndError position found = ParseError.report ⟨.missingRangeEnd found, position⟩ := by
  cases found <;> rfl

theorem Meets.unexpected {context : String} {Q : Except Report α → Reader → Prop} (h : Stands tokens r depth ts)
    (hQ : Q (.error (unexpectedAt context (Parse.position (lastPosition tokens) ts) (Parse.current ts))) r) :
    Meets (unexpected tokens context) r Q :=
  .current h (.position h (.pure hQ))

theorem Meets.expect_cons {expected : TokenKind} {p : Nat} {Q : β → Reader → Prop} {f : Except Report Unit → Action β}
    (h : Stands tokens r depth (⟨expected, p⟩ :: ts)) (hf : ∀ r', Stands tokens r' depth ts → Meets (f (.ok ())) r' Q) :
    Meets (expect tokens expected >>= f) r Q := by
  refine .bind (P := fun x r' => x = .ok () ∧ Stands tokens r' depth ts) (.current h ?_) ?_
  · rw [if_pos (show Parse.current _ = expected from rfl)]
    exact .consume_cons h fun r' hr' => .pure ⟨rfl, hr'⟩
  · rintro _ r' ⟨rfl, hr'⟩
    exact hf r' hr'

theorem Meets.expect_ne {expected : TokenKind} {Q : β → Reader → Prop} {f : Except Report Unit → Action β}
    (h : Stands tokens r depth ts) (hne : Parse.current ts ≠ expected)
    (hf : Meets (f (.error (unexpectedAt s!"expected {expected.describe}"
      (Parse.position (lastPosition tokens) ts) (Parse.current ts)))) r Q) :
    Meets (expect tokens expected >>= f) r Q := by
  refine .bind (P := fun x r' => Meets (f x) r' Q) (.current h ?_) fun x r' hx => hx
  rw [if_neg hne]
  exact .unexpected h hf

/-! ### References -/

theorem rangeEnd_ends (sheet : Option String) (h : Stands tokens r depth ts) :
    Meets (rangeEnd tokens sheet) r (Ends tokens depth (outcome (Parse.rangeEnd (lastPosition tokens) sheet ts))) := by
  refine .position h ?_
  cases ts with
  | nil => exact .consume_nil h (.pure (rangeEndError_eq .. ▸ h.fails _))
  | cons t rest =>
    obtain ⟨kind, p⟩ := t
    refine .consume_cons h fun r' hr' => ?_
    cases kind with
    | address a => exact .pure (hr'.ends a)
    | sheet name =>
      by_cases hsame : (sheet.any fun first => Text.SameName first name) = true
      · simp only [Parse.rangeEnd, hsame, if_true]
        cases rest with
        | nil => exact .consume_nil hr' (.pure (rangeEndError_eq .. ▸ hr'.fails _))
        | cons t rest =>
          obtain ⟨kind, q⟩ := t
          refine .consume_cons hr' fun r'' hr'' => ?_
          cases kind with
          | address a => exact .pure (hr''.ends a)
          | _ => exact .pure (rangeEndError_eq .. ▸ hr''.fails _)
      · simp only [Parse.rangeEnd, hsame]
        exact .pure (hr'.fails _)
    | _ => exact .pure (rangeEndError_eq .. ▸ hr'.fails _)

theorem reference_ends {sheet : Option String} {start : Address} {t : Token} (h : Stands tokens r depth ts) :
    Meets (reference tokens sheet start) r
      (Ends tokens depth (outcome (Parse.reference (lastPosition tokens) sheet start t ts))) := by
  refine .current h ?_
  cases ts with
  | nil => exact .pure (h.ends _)
  | cons t' rest =>
    obtain ⟨kind, p⟩ := t'
    cases kind with
    | colon =>
      refine .consume_cons h fun r' hr' => ?_
      have hrange := rangeEnd_ends sheet hr'
      cases hlast : Parse.rangeEnd (lastPosition tokens) sheet rest with
      | error e =>
        rw [hlast] at hrange
        rw [Parse.reference, hlast]
        exact hrange.call_error fun _ hsteady hle => .pure (.error hsteady hle)
      | ok last =>
        rw [hlast] at hrange
        rw [Parse.reference, hlast]
        exact hrange.call_ok h.depth_le fun _ hr'' => .pure (hr''.ends _)
    | _ => exact .pure (h.ends _)

/-! ### Outcomes of the descent over the tokens left -/

section Outcomes
variable {stop p : Nat} {level : Level} {op : BinaryOp} {rest : List Token}

theorem run_of_op?_eq_none {left : Parsed Expr ts} (h : level.op? (Parse.current left.rest) = none) :
    Parse.run stop depth level left = .ok left := by
  rw [Parse.run]
  split
  · rfl
  · next t us hrest =>
    rw [hrest] at h
    rw [show level.op? t.kind = none from h]

theorem run_error {t : Token} {us : List Token} {left : Parsed Expr ts} {e : ParseError} (hrest : left.rest = t :: us)
    (hop : level.op? t.kind = some op)
    (h : maxNesting ≤ depth ∧ e = ⟨.tooDeep, Parse.position stop us⟩ ∨
      ¬maxNesting ≤ depth ∧ Parse.operand stop (depth + 1) level us = .error e) :
    Parse.run stop depth level left = .error e := by
  rw [Parse.run]
  split
  · next hnil => rw [hrest] at hnil; cases hnil
  · next t' us' hcons =>
    rw [hrest] at hcons
    cases hcons
    rw [hop]
    simp only
    rcases h with ⟨hle, rfl⟩ | ⟨hle, hoperand⟩
    · rw [if_pos hle]
    · rw [if_neg hle, hoperand]

theorem outcome_signed {t : Token} {op : UnaryOp} (hsign : sign? t.kind = some op) :
    outcome (signed stop depth (t :: rest)) =
      if maxNesting ≤ depth then .error ⟨.tooDeep, Parse.position stop rest⟩
      else (outcome (signed stop (depth + 1) rest)).map fun q => (.unary op q.1, q.2) := by
  rw [signed, hsign]
  simp only
  split
  · rfl
  · cases signed stop (depth + 1) rest <;> rfl

theorem outcome_power_of_caret {base : Parsed Expr ts} (hbase : Parse.primary stop depth ts = .ok base)
    (hrest : base.rest = ⟨.caret, p⟩ :: rest) :
    outcome (power stop depth ts) =
      if maxNesting ≤ depth then .error ⟨.tooDeep, Parse.position stop rest⟩
      else (outcome (signed stop (depth + 1) rest)).map fun q => (.binary .power base.value q.1, q.2) := by
  rw [power, hbase]
  simp only
  split
  · next hcaret =>
    rw [hrest] at hcaret
    cases hcaret
    split
    · rfl
    · cases signed stop (depth + 1) rest <;> rfl
  · next hcaret => exact absurd hrest (hcaret _ _)

theorem power_of_ne_caret {base : Parsed Expr ts} (hbase : Parse.primary stop depth ts = .ok base)
    (h : Parse.current base.rest ≠ .caret) : power stop depth ts = .ok base := by
  rw [power, hbase]
  simp only
  split
  · next hcaret =>
    rw [hcaret] at h
    exact absurd rfl h
  · rfl

theorem outcome_parenthesized {inner : Parsed Expr ts} (hinner : Parse.expression stop depth ts = .ok inner)
    (hrest : inner.rest = ⟨.rightParen, n⟩ :: rest) :
    outcome (Parse.primary stop depth (⟨.leftParen, p⟩ :: ts)) = .ok (inner.value, rest) := by
  rw [Parse.primary, hinner]
  simp only
  split
  · next hparen =>
    rw [hrest] at hparen
    cases hparen
    rfl
  · next hparen => exact absurd hrest (hparen _ _)

theorem primary_missing_rightParen {inner : Parsed Expr ts} (hinner : Parse.expression stop depth ts = .ok inner)
    (h : Parse.current inner.rest ≠ .rightParen) :
    Parse.primary stop depth (⟨.leftParen, p⟩ :: ts) =
      .error ⟨.missingRightParen (Parse.current inner.rest), Parse.position stop inner.rest⟩ := by
  rw [Parse.primary, hinner]
  simp only
  split
  · next hparen =>
    rw [hparen] at h
    exact absurd rfl h
  · rfl

theorem outcome_arguments_of_comma {first : Parsed Expr ts} (hfirst : Parse.expression stop depth ts = .ok first)
    (hrest : first.rest = ⟨.comma, p⟩ :: rest) :
    outcome (Parse.arguments stop depth ts) =
      (outcome (Parse.arguments stop depth rest)).map fun q => (first.value :: q.1, q.2) := by
  rw [Parse.arguments, hfirst]
  simp only
  split
  · next hcomma =>
    rw [hrest] at hcomma
    cases hcomma
    cases Parse.arguments stop depth rest <;> rfl
  · next hparen => rw [hrest] at hparen; cases hparen
  · next hcomma _ => exact absurd hrest (hcomma _ _)

theorem outcome_arguments_of_rightParen {first : Parsed Expr ts} (hfirst : Parse.expression stop depth ts = .ok first)
    (hrest : first.rest = ⟨.rightParen, p⟩ :: rest) :
    outcome (Parse.arguments stop depth ts) = .ok ([first.value], rest) := by
  rw [Parse.arguments, hfirst]
  simp only
  split
  · next hcomma => rw [hrest] at hcomma; cases hcomma
  · next hparen =>
    rw [hrest] at hparen
    cases hparen
    rfl
  · next _ hparen => exact absurd hrest (hparen _ _)

theorem arguments_open {first : Parsed Expr ts} (hfirst : Parse.expression stop depth ts = .ok first)
    (hcomma : Parse.current first.rest ≠ .comma) (hparen : Parse.current first.rest ≠ .rightParen) :
    Parse.arguments stop depth ts =
      .error ⟨.openArguments (Parse.current first.rest), Parse.position stop first.rest⟩ := by
  rw [Parse.arguments, hfirst]
  simp only
  split
  · next hrest => rw [hrest] at hcomma; exact absurd rfl hcomma
  · next hrest => rw [hrest] at hparen; exact absurd rfl hparen
  · rfl

end Outcomes

/-! ### The functions -/

/-- What follows from the tokens `ts`, for each of the functions that the induction needs. -/
structure Descends (tokens ts : List Token) : Prop where
  expression : ∀ {r : Reader} {depth : Nat}, Stands tokens r depth ts →
    Meets (expression tokens) r (Ends tokens depth (outcome (Parse.expression (lastPosition tokens) depth ts)))
  operand : ∀ {r : Reader} {depth : Nat} (level : Level), Stands tokens r depth ts →
    Meets (operand tokens level) r (Ends tokens depth (outcome (Parse.operand (lastPosition tokens) depth level ts)))
  unary : ∀ {r : Reader} {depth : Nat}, Stands tokens r depth ts →
    Meets (unary tokens) r (Ends tokens depth (outcome (Parse.signed (lastPosition tokens) depth ts)))
  arguments : ∀ {r : Reader} {depth : Nat} (before : List Expr), Stands tokens r depth ts →
    Meets (arguments tokens before) r (Ends tokens depth
      ((outcome (Parse.arguments (lastPosition tokens) depth ts)).map fun q => (before ++ q.1, q.2)))

/-- What the rest of a call gives behind its opening parenthesis. -/
def callOutcome (stop depth : Nat) (name : String) : List Token → Except ParseError (Expr × List Token)
  | ⟨.rightParen, _⟩ :: after => .ok (.call name [], after)
  | after => (outcome (Parse.arguments stop depth after)).map fun q => (Expr.call name q.1, q.2)

theorem outcome_call {stop p q : Nat} {name : String} (after : List Token) :
    outcome (Parse.primary stop depth (⟨.identifier name, p⟩ :: ⟨.leftParen, q⟩ :: after)) =
      callOutcome stop depth name after := by
  unfold Parse.primary callOutcome
  split
  · rfl
  · simp only
    cases Parse.arguments stop depth after <;> rfl

theorem Ends.call {x : Except Report (List Expr)} {name : String} {parsed : Except ParseError (Parsed (List Expr) ts)}
    (h : Ends tokens depth ((outcome parsed).map fun q => ([] ++ q.1, q.2)) x r) :
    Ends tokens depth ((outcome parsed).map fun q => (Expr.call name q.1, q.2)) (x.map (.call name)) r := by
  have hcall := h.map (Expr.call name)
  cases parsed <;> exact hcall

theorem exists_of_current_eq {k : TokenKind} (h : Parse.current ts = k) (hk : k ≠ .stop) :
    ∃ p rest, ts = ⟨k, p⟩ :: rest := by
  cases ts with
  | nil => exact absurd h.symm hk
  | cons t rest => exact ⟨t.position, rest, h ▸ rfl⟩

theorem functionCall_ends {name : String} {q : Nat} (hts : Descends tokens ts)
    (h : Stands tokens r depth (⟨.leftParen, q⟩ :: ts)) :
    Meets (functionCall tokens name) r (Ends tokens depth (callOutcome (lastPosition tokens) depth name ts)) := by
  rw [functionCall]
  refine .expect_cons h fun r' hr' => .current hr' ?_
  have hargs := (hts.arguments [] hr').bind (f := fun x => pure (x.map (.call name)))
    (Q := Ends tokens depth ((outcome (Parse.arguments _ _ ts)).map fun q => (Expr.call name q.1, q.2)))
    fun _ _ hx => .pure hx.call
  cases ts with
  | nil => exact hargs
  | cons t rest =>
    obtain ⟨kind, p⟩ := t
    cases kind with
    | rightParen => exact .consume_cons hr' fun _ hr'' => .pure (hr''.ends _)
    | _ => exact hargs

theorem outcome_sheet {stop p q : Nat} {name : String} {a : Address} (after : List Token) :
    outcome (Parse.primary stop depth (⟨.sheet name, p⟩ :: ⟨.address a, q⟩ :: after)) =
      outcome (Parse.reference stop (some name) a ⟨.address a, q⟩ after) := by
  rw [Parse.primary]
  cases Parse.reference stop (some name) a ⟨.address a, q⟩ after <;> rfl

section Functions
variable (ih : ∀ us : List Token, us.length < ts.length → Descends tokens us)
include ih

theorem primary_ends (h : Stands tokens r depth ts) :
    Meets (primary tokens) r (Ends tokens depth (outcome (Parse.primary (lastPosition tokens) depth ts))) := by
  rw [primary]
  refine .position h (.current h ?_)
  cases ts with
  | nil =>
    rw [Parse.primary]
    exact .unexpected h (h.fails _)
  | cons t rest =>
    obtain ⟨kind, p⟩ := t
    have hrest := ih rest (Nat.lt_succ_self _)
    cases kind with
    | leftParen =>
      refine .consume_cons h fun r' hr' => ?_
      have hexpression := hrest.expression hr'
      cases hinner : Parse.expression (lastPosition tokens) depth rest with
      | error e =>
        rw [hinner] at hexpression
        rw [Parse.primary, hinner]
        exact hexpression.call_error fun _ hsteady hle => .pure (.error hsteady hle)
      | ok inner =>
        rw [hinner] at hexpression
        refine hexpression.call_ok h.depth_le fun r'' hr'' => ?_
        by_cases hparen : Parse.current inner.rest = .rightParen
        · obtain ⟨n, after, hafter⟩ := exists_of_current_eq hparen (by simp)
          rw [outcome_parenthesized hinner hafter]
          exact .expect_cons (hafter ▸ hr'') fun _ h' => .pure (h'.ends _)
        · rw [primary_missing_rightParen hinner hparen]
          exact .expect_ne hr'' hparen (.pure (hr''.fails _))
    | sheet name =>
      refine .consume_cons h fun r' hr' => ?_
      cases rest with
      | nil =>
        rw [Parse.primary]
        · exact .consume_nil hr' (.pure (hr'.fails _))
        · simp
      | cons t after =>
        obtain ⟨kind, q⟩ := t
        refine .consume_cons hr' fun r'' hr'' => ?_
        cases kind with
        | address a =>
          rw [outcome_sheet]
          exact reference_ends hr''
        | _ =>
          rw [Parse.primary]
          · exact .pure (hr''.fails _)
          · simp
    | address a =>
      rw [Parse.primary]
      exact .consume_cons h fun r' hr' => reference_ends hr'
    | identifier name =>
      refine .consume_cons h fun r' hr' => .current hr' ?_
      cases rest with
      | nil =>
        rw [Parse.primary]
        · exact .pure (hr'.fails _)
        · simp
      | cons t after =>
        obtain ⟨kind, q⟩ := t
        cases kind with
        | leftParen =>
          rw [outcome_call]
          exact functionCall_ends (ih after (Nat.lt_succ_of_lt (Nat.lt_succ_self _))) hr'
        | _ =>
          rw [Parse.primary]
          · exact .pure (hr'.fails _)
          · simp
    | number n =>
      rw [Parse.primary]
      exact .consume_cons h fun _ hr' => .pure (hr'.ends _)
    | text s =>
      rw [Parse.primary]
      exact .consume_cons h fun _ hr' => .pure (hr'.ends _)
    | boolean b =>
      rw [Parse.primary]
      exact .consume_cons h fun _ hr' => .pure (hr'.ends _)
    | error e =>
      rw [Parse.primary]
      exact .consume_cons h fun _ hr' => .pure (hr'.ends _)
    | _ =>
      rw [Parse.primary]
      · exact .unexpected h (h.fails _)
      all_goals simp

theorem exponent_ends (h : Stands tokens r depth ts) :
    Meets (exponent tokens) r (Ends tokens depth (outcome (Parse.power (lastPosition tokens) depth ts))) := by
  have hprimary := primary_ends ih h
  rw [exponent]
  cases hbase : Parse.primary (lastPosition tokens) depth ts with
  | error e =>
    rw [hbase] at hprimary
    rw [Parse.power, hbase]
    exact hprimary.call_error fun _ hsteady hle => .pure (.error hsteady hle)
  | ok base =>
    rw [hbase] at hprimary
    refine hprimary.call_ok h.depth_le fun r' hr' => .current hr' ?_
    by_cases hcaret : Parse.current base.rest = .caret
    · obtain ⟨p, rest, hrest⟩ := exists_of_current_eq hcaret (by simp)
      have hlt : rest.length < ts.length := by
        have := base.properEnd.length_lt
        rw [hrest, List.length_cons] at this
        omega
      rw [outcome_power_of_caret hbase hrest, hcaret]
      refine .consume_cons (hrest ▸ hr') fun r'' hr'' =>
        .enter hr'' (fun hle r₁ hr₁ => ?_) fun hle r₁ hsteady hdepth => ?_
      · rw [if_neg hle]
        exact ((ih rest hlt).unary hr₁).call_leave fun x r₂ hx => .pure (hx.map _)
      · rw [if_pos hle]
        exact .pure (.error hsteady (Nat.le_of_lt hdepth))
    · rw [power_of_ne_caret hbase hcaret]
      split
      · next heq => exact absurd heq hcaret
      · exact .pure (hr'.ends _)

theorem unary_ends (h : Stands tokens r depth ts) :
    Meets (unary tokens) r (Ends tokens depth (outcome (Parse.signed (lastPosition tokens) depth ts))) := by
  have hexponent := exponent_ends ih h
  rw [unary]
  refine .current h ?_
  cases ts with
  | nil =>
    rw [Parse.signed]
    exact hexponent
  | cons t rest =>
    have hrest := ih rest (Nat.lt_succ_self _)
    rw [show Parse.current (t :: rest) = t.kind from rfl]
    cases hsign : sign? t.kind with
    | none =>
      rw [Parse.signed, hsign]
      exact hexponent
    | some op =>
      rw [outcome_signed hsign]
      refine .consume_cons h fun r' hr' => .enter hr' (fun hle r₁ hr₁ => ?_) fun hle r₁ hsteady hdepth => ?_
      · rw [if_neg hle]
        exact (hrest.unary hr₁).call_leave fun x r₂ hx => .pure (hx.map _)
      · rw [if_pos hle]
        exact .pure (.error hsteady (Nat.le_of_lt hdepth))

/-- A run of operators takes back all that it has counted. By induction on the tokens left. -/
theorem run_ends {level : Level} {left : Parsed Expr ts} {folds : Nat}
    (h : Stands tokens r (depth + folds) left.rest) :
    Meets (run tokens level left.value folds) r
      (Ends tokens depth (outcome (Parse.run (lastPosition tokens) (depth + folds) level left))) := by
  induction hlength : left.rest.length using Nat.strongRecOn generalizing left folds r with
  | ind length ihrun =>
    rw [run]
    refine .current h ?_
    cases hop : level.op? (Parse.current left.rest) with
    | none =>
      rw [run_of_op?_eq_none hop]
      refine .leave h.steady (h.depth_eq ▸ Nat.le_add_left folds depth) fun r' hsteady hpos hdepth => ?_
      exact .pure (.ok hsteady (hpos ▸ h.rest) (Nat.add_right_cancel (hdepth.trans h.depth_eq)))
    | some op =>
      obtain ⟨t, us, hus⟩ : ∃ t us, left.rest = t :: us := by
        cases hrest : left.rest with
        | nil =>
          rw [hrest] at hop
          cases level <;> cases hop
        | cons t us => exact ⟨t, us, rfl⟩
      have hop : level.op? t.kind = some op := by rwa [hus] at hop
      have hlt := left.properEnd.length_lt
      rw [hus, List.length_cons] at hlt hlength
      refine .consume_cons (hus ▸ h) fun r₁ hr₁ => .enter hr₁ (fun hle r₂ hr₂ => ?_) fun hle r₂ hsteady hdepth => ?_
      · have hoperand := (ih us (Nat.lt_of_succ_lt hlt)).operand level hr₂
        cases hresult : Parse.operand (lastPosition tokens) (depth + folds + 1) level us with
        | error e =>
          rw [hresult] at hoperand
          rw [run_error hus hop (.inr ⟨hle, hresult⟩)]
          refine hoperand.call_error fun r₃ hsteady hdepth => .leave hsteady (by omega) fun r₄ hsteady' _ hdepth' => ?_
          exact .pure (.error hsteady' (by omega))
        | ok right =>
          rw [hresult] at hoperand
          obtain ⟨hproper, hrun⟩ := run_next hus hop (Nat.lt_of_not_le hle) hresult
          have hright := right.properEnd.length_lt
          rw [hrun]
          refine hoperand.call_ok hr₂.depth_le fun r₃ hr₃ => ?_
          have hfolded : Stands tokens r₃ (depth + (folds + 1))
              (⟨.binary op left.value right.value, right.rest, hproper⟩ : Parsed Expr ts).rest := hr₃
          exact ihrun right.rest.length (by omega) hfolded rfl
      · rw [run_error hus hop (.inl ⟨hle, rfl⟩)]
        refine .leave hsteady (by omega) fun r₃ hsteady' _ hdepth' => .pure (.error hsteady' (by omega))

theorem chain_ends {level : Level} (h : Stands tokens r depth ts)
    (hoperand : Meets (operand tokens level) r
      (Ends tokens depth (outcome (Parse.operand (lastPosition tokens) depth level ts)))) :
    Meets (chain tokens level) r
      (Ends tokens depth (outcome (Parse.chain (lastPosition tokens) depth level ts))) := by
  rw [chain, Parse.chain]
  cases hleft : Parse.operand (lastPosition tokens) depth level ts with
  | error e =>
    rw [hleft] at hoperand
    exact hoperand.call_error fun _ hsteady hle => .pure (.error hsteady hle)
  | ok left =>
    rw [hleft] at hoperand
    exact hoperand.call_ok h.depth_le fun r' hr' => run_ends ih hr'

theorem operand_ends (level : Level) (h : Stands tokens r depth ts) :
    Meets (operand tokens level) r
      (Ends tokens depth (outcome (Parse.operand (lastPosition tokens) depth level ts))) := by
  rw [operand]
  cases htighter : level.tighter? with
  | some tighter =>
    have := Level.rank_lt_of_tighter? htighter
    rw [operand_of_tighter htighter]
    exact chain_ends ih h (operand_ends tighter h)
  | none =>
    rw [operand_of_tightest htighter]
    exact unary_ends ih h
termination_by level.rank

theorem expression_ends (h : Stands tokens r depth ts) :
    Meets (expression tokens) r (Ends tokens depth (outcome (Parse.expression (lastPosition tokens) depth ts))) := by
  rw [expression, Parse.expression]
  refine .enter h (fun hle r' hr' => ?_) fun hle r' hsteady hdepth => ?_
  · rw [if_neg hle]
    exact (chain_ends ih hr' (operand_ends ih .comparison hr')).call_leave fun x r'' hx => .pure hx
  · rw [if_pos hle]
    exact .pure (.error hsteady (Nat.le_of_lt hdepth))

theorem arguments_ends (before : List Expr) (h : Stands tokens r depth ts) :
    Meets (arguments tokens before) r (Ends tokens depth
      ((outcome (Parse.arguments (lastPosition tokens) depth ts)).map fun q => (before ++ q.1, q.2))) := by
  have hexpression := expression_ends ih h
  rw [arguments]
  cases hfirst : Parse.expression (lastPosition tokens) depth ts with
  | error e =>
    rw [hfirst] at hexpression
    rw [Parse.arguments, hfirst]
    exact hexpression.call_error fun _ hsteady hle => .pure (.error hsteady hle)
  | ok first =>
    rw [hfirst] at hexpression
    refine hexpression.call_ok h.depth_le fun r' hr' => .current hr' ?_
    have hlt := first.properEnd.length_lt
    by_cases hcomma : Parse.current first.rest = .comma
    · obtain ⟨p, rest, hrest⟩ := exists_of_current_eq hcomma (by simp)
      rw [hrest, List.length_cons] at hlt
      rw [hcomma, outcome_arguments_of_comma hfirst hrest]
      refine .consume_cons (hrest ▸ hr') fun r'' hr'' => ?_
      have hothers := (ih rest (Nat.lt_of_succ_lt hlt)).arguments (before ++ [first.value]) hr''
      cases hresult : Parse.arguments (lastPosition tokens) depth rest with
      | error e =>
        rw [hresult] at hothers
        exact hothers
      | ok others =>
        rw [hresult] at hothers
        simpa [outcome, Except.map] using hothers
    · by_cases hparen : Parse.current first.rest = .rightParen
      · obtain ⟨p, rest, hrest⟩ := exists_of_current_eq hparen (by simp)
        rw [hparen, outcome_arguments_of_rightParen hfirst hrest]
        exact .consume_cons (hrest ▸ hr') fun r'' hr'' => .pure (hr''.ends _)
      · rw [arguments_open hfirst hcomma hparen]
        split
        · next heq => exact absurd heq hcomma
        · next heq => exact absurd heq hparen
        · exact .unexpected hr' (hr'.fails _)

end Functions

theorem descends (tokens ts : List Token) : Descends tokens ts := by
  induction hlength : ts.length using Nat.strongRecOn generalizing ts with
  | ind length ih =>
    have ih : ∀ us : List Token, us.length < ts.length → Descends tokens us := fun us hus => ih _ (by omega) us rfl
    exact ⟨expression_ends ih, operand_ends ih, unary_ends ih, arguments_ends ih⟩

/-! ### The whole descent -/

theorem stands_at {start : Mark} (hpos : start.pos ≤ tokens.length) (hdepth : start.depth ≤ maxNesting) :
    Stands tokens (.at start) start.depth (tokens.drop start.pos) where
  steady := List.forall_mem_singleton.mpr ⟨hpos, Nat.le_succ_of_le hdepth⟩
  rest := rfl
  depth_eq := rfl
  depth_le := hdepth

/-- The descent with a cursor reads the formula that the descent over the tokens left reads. -/
theorem run_formula (tokens : List Token) : ∃ r, ((formula tokens).run (.at ⟨0, 0⟩)).run =
    some (.ok ((Parse.formula tokens).mapError ParseError.report, r)) := by
  have hstart : Stands tokens (.at ⟨0, 0⟩) 0 tokens := stands_at (Nat.zero_le _) (Nat.zero_le _)
  suffices hmeets : Meets (formula tokens) (.at ⟨0, 0⟩)
      fun x _ => x = (Parse.formula tokens).mapError ParseError.report by
    obtain ⟨_, r, hrun, rfl⟩ := hmeets
    exact ⟨r, hrun⟩
  have hexpression := (descends tokens tokens).expression hstart
  unfold Parse.formula
  cases hresult : Parse.expression (lastPosition tokens) 0 tokens with
  | error e =>
    rw [hresult] at hexpression
    simp only [hresult]
    exact hexpression.call_error fun _ _ _ => .pure rfl
  | ok e =>
    rw [hresult] at hexpression
    simp only [hresult]
    refine hexpression.call_ok (Nat.zero_le _) fun r hr => .current hr ?_
    cases Parse.current e.rest with
    | stop => exact .pure rfl
    | _ => exact .position hr (.pure rfl)

/-! ### How far a call goes -/

section Advances
variable {pos pos' : Nat}

theorem lt_of_length_drop_lt (h : (tokens.drop pos').length < (tokens.drop pos).length) : pos < pos' := by
  rw [List.length_drop, List.length_drop] at h
  omega

theorem eq_of_drop_eq (hpos : pos ≤ tokens.length) (hpos' : pos' ≤ tokens.length)
    (h : tokens.drop pos' = tokens.drop pos) : pos' = pos := by
  have hlength := congrArg List.length h
  rw [List.length_drop, List.length_drop] at hlength
  omega

theorem length_lt_of_outcome {parsed : Except ParseError (Parsed α ts)} {v : α} {rest : List Token}
    (h : outcome parsed = .ok (v, rest)) : rest.length < ts.length := by
  cases parsed with
  | error e => cases h
  | ok p =>
    cases h
    exact p.properEnd.length_lt

theorem length_le_of_callOutcome {stop : Nat} {name : String} {e : Expr} {rest : List Token}
    (h : callOutcome stop depth name ts = .ok (e, rest)) : rest.length ≤ ts.length := by
  unfold callOutcome at h
  split at h
  · cases h
    exact Nat.le_succ _
  · cases hargs : Parse.arguments stop depth ts with
    | error e =>
      rw [hargs] at h
      cases h
    | ok args =>
      rw [hargs] at h
      cases h
      exact Nat.le_of_lt args.properEnd.length_lt

theorem rest_of_reference {stop : Nat} {sheet : Option String} {start : Address} {t : Token} {e : Expr}
    {rest : List Token} (h : outcome (Parse.reference stop sheet start t ts) = .ok (e, rest)) :
    if Parse.current ts = .colon then rest.length < ts.length else rest = ts := by
  cases ts with
  | nil =>
    cases h
    rfl
  | cons t' us =>
    obtain ⟨kind, p⟩ := t'
    cases kind with
    | colon =>
      rw [Parse.reference] at h
      cases hlast : Parse.rangeEnd stop sheet us with
      | error e =>
        rw [hlast] at h
        cases h
      | ok last =>
        rw [hlast] at h
        cases h
        exact Nat.lt_succ_of_lt last.properEnd.length_lt
    | _ =>
      cases h
      rfl

end Advances

/-- A call that ends as the descent does is balanced, and from the tokens that the descent leaves it follows how far the
    cursor went. -/
theorem Meets.balanced {a : Action (Except Report Expr)} {result : Except ParseError (Expr × List Token)}
    {start : Mark} {p : Prop} (h : Meets a (.at start) (Ends tokens start.depth result))
    (hresult : ∀ pos e, pos ≤ tokens.length → result = .ok (e, tokens.drop pos) →
      start.pos < pos ∨ p ∧ pos = start.pos) :
    Meets a (.at start) fun x r =>
      r.Steady tokens ∧ ∀ e, x = .ok e → r.depth = start.depth ∧ (start.pos < r.pos ∨ p ∧ r.pos = start.pos) := by
  obtain ⟨x, r, hrun, hx⟩ := h
  refine ⟨x, r, hrun, ?_⟩
  cases hx with
  | ok hsteady hrest hdepth =>
    subst hrest
    exact ⟨hsteady, fun _ _ => ⟨hdepth, hresult _ _ hsteady.bounded.pos_le rfl⟩⟩
  | error hsteady => exact ⟨hsteady, nofun⟩

/-- From any cursor and any depth up to the limit each of the functions ends, and takes no more from the depth than it
    has. Throughout, the depth is at most one above the limit and the cursor within the list. A call that succeeds is
    back at its depth, and the cursor has advanced; only a call for a reference where no colon stands leaves it
    there. -/
theorem Call.run_balanced (tokens : List Token) (call : Call) (start : Mark) (hpos : start.pos ≤ tokens.length)
    (hdepth : start.depth ≤ maxNesting) :
    ∃ x r, ((call.run tokens).run (.at start)).run = some (.ok (x, r)) ∧
      (∀ m ∈ r.toMark :: r.trail, m.pos ≤ tokens.length ∧ m.depth ≤ maxNesting + 1) ∧
      ∀ e, x = .ok e → r.depth = start.depth ∧
        (start.pos < r.pos ∨
          (∃ sheet first, call = .reference sheet first ∧ kindAt tokens start.pos ≠ .colon) ∧ r.pos = start.pos) := by
  suffices hmeets : Meets (call.run tokens) (.at start) fun x r =>
      r.Steady tokens ∧ ∀ e, x = .ok e → r.depth = start.depth ∧
        (start.pos < r.pos ∨
          (∃ sheet first, call = .reference sheet first ∧ kindAt tokens start.pos ≠ .colon) ∧ r.pos = start.pos) by
    obtain ⟨x, r, hrun, hsteady, hok⟩ := hmeets
    exact ⟨x, r, hrun, fun m hm => ⟨(hsteady m hm).pos_le, (hsteady m hm).depth_le⟩, hok⟩
  have hstart := stands_at hpos hdepth
  have ih : ∀ us : List Token, us.length < (tokens.drop start.pos).length → Descends tokens us :=
    fun us _ => descends tokens us
  have hadvance {pos : Nat} {e : Expr} {parsed : Except ParseError (Parsed Expr (tokens.drop start.pos))}
      (h : outcome parsed = .ok (e, tokens.drop pos)) : start.pos < pos := lt_of_length_drop_lt (length_lt_of_outcome h)
  cases call with
  | expression => exact (expression_ends ih hstart).balanced fun _ _ _ h => Or.inl (hadvance h)
  | chain level =>
    exact (chain_ends ih hstart (operand_ends ih level hstart)).balanced fun _ _ _ h => Or.inl (hadvance h)
  | unary => exact (unary_ends ih hstart).balanced fun _ _ _ h => Or.inl (hadvance h)
  | exponent => exact (exponent_ends ih hstart).balanced fun _ _ _ h => Or.inl (hadvance h)
  | primary => exact (primary_ends ih hstart).balanced fun _ _ _ h => Or.inl (hadvance h)
  | reference sheet first =>
    refine (reference_ends (t := ⟨.address first, 0⟩) hstart).balanced fun pos e hle h => ?_
    have hrest := rest_of_reference h
    rw [← kindAt_eq rfl] at hrest
    split at hrest
    · exact Or.inl (lt_of_length_drop_lt hrest)
    · next hcolon => exact Or.inr ⟨⟨sheet, first, rfl, hcolon⟩, eq_of_drop_eq hpos hle hrest⟩
  | functionCall name =>
    by_cases hparen : Parse.current (tokens.drop start.pos) = .leftParen
    · obtain ⟨q, after, hafter⟩ := exists_of_current_eq hparen (by simp)
      refine (functionCall_ends (descends tokens after) (hafter ▸ hstart)).balanced fun pos e _ h => Or.inl ?_
      have hlt : (tokens.drop pos).length < (tokens.drop start.pos).length := by
        rw [hafter]
        exact Nat.lt_succ_of_le (length_le_of_callOutcome h)
      exact lt_of_length_drop_lt hlt
    · show Meets (Descent.functionCall tokens name) _ _
      rw [Descent.functionCall]
      exact .expect_ne hstart hparen (.pure ⟨hstart.steady, nofun⟩)

theorem Call.run_balanced_parentheses :
    let tokens : List Token := [⟨.leftParen, 1⟩, ⟨.boolean true, 2⟩, ⟨.rightParen, 6⟩]
    (0 ≤ tokens.length ∧ 255 ≤ maxNesting) ∧
      ∃ x r, ((primary.run tokens).run (.at ⟨0, 255⟩)).run = some (.ok (x, r)) ∧
        (∀ m ∈ r.toMark :: r.trail, m.pos ≤ tokens.length ∧ m.depth ≤ maxNesting + 1) ∧
        ∀ e, x = .ok e → r.depth = 255 ∧ 0 < r.pos := by
  intro tokens
  obtain ⟨x, r, hrun, hmarks, hok⟩ := run_balanced tokens primary ⟨0, 255⟩ (Nat.zero_le _) (by decide)
  refine ⟨by decide, x, r, hrun, hmarks, fun e he => ?_⟩
  obtain ⟨hdepth, hlt | ⟨⟨sheet, first, hcall, -⟩, -⟩⟩ := hok e he
  · exact ⟨hdepth, hlt⟩
  · cases hcall

/-- Behind the address in `=A1` the call for the rest of the reference succeeds where it stands. -/
theorem Call.run_reference_still :
    let tokens : List Token := [⟨.address ⟨0, 0, false, false⟩, 1⟩, ⟨.stop, 3⟩]
    ∃ e r, (((reference none ⟨0, 0, false, false⟩).run tokens).run (.at ⟨1, 0⟩)).run = some (.ok (.ok e, r)) ∧
      ¬1 < r.pos :=
  ⟨.reference (.cell none ⟨0, 0, false, false⟩), .at ⟨1, 0⟩, rfl, Nat.lt_irrefl 1⟩

end Spreadsheet.Descent
