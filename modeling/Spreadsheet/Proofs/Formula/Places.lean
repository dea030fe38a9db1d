import Spreadsheet.Formula.Visit
import Spreadsheet.Proofs.Formula.Canonical

/-! # The places of nodes

A place in a tree says which child to take at each node on the way down to it. The lexicographic order of places
is the order in which the nodes of a formula stand: a node before its children, these from left to right. The walk
lists every place of a formula once and in this order (`Expr.inOrder_preorder`), and so does the loop that keeps the
stack upside down (`Expr.visitAll_eq`). The references that it meets are those in the canonical text, from left to
right (`Expr.shows_layout`). -/

namespace Spreadsheet

/-! ### Lists in the order of places -/

/-- The list holds what stands at the places, once for each place, in the order of the places. -/
def InOrder {α : Type} (at? : List Nat → Option α) (xs : List α) : Prop :=
  ∃ places : List (List Nat), places.Pairwise (· < ·) ∧ (∀ place, place ∈ places ↔ (at? place).isSome) ∧
    xs.map some = places.map at?

theorem modifyHead_lt {p q : List Nat} (h : p < q) : p.modifyHead (· + 1) < q.modifyHead (· + 1) := by
  cases p with
  | nil =>
    cases q with
    | nil => exact absurd h (List.not_lt_nil [])
    | cons j q => exact List.nil_lt_cons (j + 1) q
  | cons i p =>
    cases q with
    | nil => exact absurd h (List.not_lt_nil (i :: p))
    | cons j q => simpa [List.cons_lt_cons_iff] using h

namespace InOrder
variable {α β : Type} {at? : List Nat → Option α} {xs ys : List α}

/-- There is one such list at most. -/
theorem unique (h : InOrder at? xs) (h' : InOrder at? ys) : xs = ys := by
  obtain ⟨places, hlt, hmem, hxs⟩ := h
  obtain ⟨others, hlt', hmem', hys⟩ := h'
  have hnodup {ps : List (List Nat)} (hps : ps.Pairwise (· < ·)) : ps.Nodup := by
    refine hps.imp ?_
    rintro p _ hlt rfl
    exact List.lt_irrefl p hlt
  have hperm : places.Perm others := (List.perm_ext_iff_of_nodup (hnodup hlt) (hnodup hlt')).mpr fun place =>
    (hmem place).trans (hmem' place).symm
  have heq : places = others :=
    hperm.eq_of_pairwise (fun p q _ _ hpq hqp => absurd hqp (List.lt_asymm hpq)) hlt hlt'
  rw [heq, ← hys] at hxs
  exact (List.map_inj_right fun _ _ hsome => Option.some.inj hsome).mp hxs

theorem nil (h : ∀ place, at? place = none) : InOrder at? [] :=
  ⟨[], .nil, by simp [h], rfl⟩

/-- If nothing stands at the root, then all that stands anywhere is below a child. -/
theorem exists_cons {places : List (List Nat)} (hmem : ∀ place, place ∈ places ↔ (at? place).isSome)
    (hroot : at? [] = none) {place : List Nat} (h : place ∈ places) : ∃ i rest, place = i :: rest := by
  refine List.exists_cons_of_ne_nil ?_
  rintro rfl
  rw [hmem, hroot] at h
  cases h

/-- A tree lists its root first. -/
theorem cons (below? : List Nat → Option α) {x : α} (hroot : at? [] = some x) (hbelow : below? [] = none)
    (heq : ∀ i place, at? (i :: place) = below? (i :: place)) (h : InOrder below? xs) : InOrder at? (x :: xs) := by
  obtain ⟨places, hlt, hmem, hxs⟩ := h
  refine ⟨[] :: places, List.pairwise_cons.mpr ⟨fun place hplace => ?_, hlt⟩, fun place => ?_, ?_⟩
  · obtain ⟨i, rest, rfl⟩ := exists_cons hmem hbelow hplace
    exact List.nil_lt_cons i rest
  · cases place with
    | nil => simp [hroot]
    | cons i rest => simp [hmem, heq]
  · rw [List.map_cons, List.map_cons, hroot, hxs]
    refine congrArg _ (List.map_congr_left fun place hplace => ?_)
    obtain ⟨i, rest, rfl⟩ := exists_cons hmem hbelow hplace
    exact (heq i rest).symm

/-- Trees side by side list what is in the first one first. -/
theorem append {first? rest? : List Nat → Option α} (hroot : at? [] = none) (hrest : rest? [] = none)
    (hfirst : ∀ place, at? (0 :: place) = first? place)
    (hnext : ∀ i place, at? ((i + 1) :: place) = rest? (i :: place)) (h : InOrder first? xs)
    (h' : InOrder rest? ys) : InOrder at? (xs ++ ys) := by
  obtain ⟨places, hlt, hmem, hxs⟩ := h
  obtain ⟨others, hlt', hmem', hys⟩ := h'
  -- the first tree becomes child 0, and the others move on by one
  refine ⟨places.map (0 :: ·) ++ others.map (List.modifyHead (· + 1)), List.pairwise_append.mpr ⟨?_, ?_, ?_⟩,
    fun place => ?_, ?_⟩
  · exact List.pairwise_map.mpr (hlt.imp fun hpq => List.cons_lt_cons_iff.mpr (.inr ⟨rfl, hpq⟩))
  · exact List.pairwise_map.mpr (hlt'.imp modifyHead_lt)
  · intro p hp q hq
    obtain ⟨p, -, rfl⟩ := List.mem_map.mp hp
    obtain ⟨q, hother, rfl⟩ := List.mem_map.mp hq
    obtain ⟨i, q, rfl⟩ := exists_cons hmem' hrest hother
    exact List.cons_lt_cons_iff.mpr (.inl (Nat.succ_pos i))
  · have hmoved : place ∈ others.map (List.modifyHead (· + 1)) ↔
        ∃ i rest, i :: rest ∈ others ∧ (i + 1) :: rest = place := by
      rw [List.mem_map]
      constructor
      · rintro ⟨q, hq, rfl⟩
        obtain ⟨i, q, rfl⟩ := exists_cons hmem' hrest hq
        exact ⟨i, q, hq, rfl⟩
      · rintro ⟨i, rest, hmem, rfl⟩
        exact ⟨i :: rest, hmem, rfl⟩
    rw [List.mem_append, hmoved]
    rcases place with _ | ⟨_ | i, rest⟩
    · simp [hroot]
    · simp [hfirst, hmem]
    · simp [hnext, hmem']
  · rw [List.map_append, List.map_append, List.map_map, List.map_map, hxs, hys]
    refine congrArg₂ _ (List.map_congr_left fun place _ => (hfirst place).symm)
      (List.map_congr_left fun place hplace => ?_)
    obtain ⟨i, rest, rfl⟩ := exists_cons hmem' hrest hplace
    exact (hnext i rest).symm

/-- What is picked from a list in order is in order. -/
theorem filterMap (h : InOrder at? xs) (f : α → Option β) :
    InOrder (fun place => (at? place).bind f) (xs.filterMap f) := by
  obtain ⟨places, hlt, hmem, hxs⟩ := h
  refine ⟨places.filter fun place => ((at? place).bind f).isSome, hlt.filter _, fun place => ?_, ?_⟩
  · rw [List.mem_filter, hmem, and_iff_right_iff_imp]
    exact Option.isSome_of_isSome_bind
  · have hpicked : xs.map f = places.map fun place => (at? place).bind f := by
      have hbind := congrArg (List.map (Option.bind · f)) hxs
      rwa [List.map_map, List.map_map] at hbind
    calc (xs.filterMap f).map some = (xs.map f).filter Option.isSome :=
          List.map_filterMap_some_eq_filter_map_isSome
      _ = (places.map fun place => (at? place).bind f).filter Option.isSome := by rw [hpicked]
      _ = (places.filter fun place => ((at? place).bind f).isSome).map fun place => (at? place).bind f :=
          List.filter_map

end InOrder

namespace Expr

/-! ### The nodes of a formula -/

/-- The node at a place. -/
def node? : Expr → List Nat → Option Expr
  | e, [] => some e
  | e, i :: place => e.children[i]?.bind fun child => child.node? place

/-- The node at a place below trees that stand side by side. -/
def nodeAmong? (es : List Expr) : List Nat → Option Expr
  | [] => none
  | i :: place => es[i]?.bind fun e => e.node? place

theorem sizeOf_lt_of_mem_children {e child : Expr} (h : child ∈ e.children) : sizeOf child < sizeOf e := by
  cases e with
  | unary op x =>
    obtain rfl := List.mem_singleton.mp h
    simp only [unary.sizeOf_spec]
    omega
  | binary op l r =>
    simp only [binary.sizeOf_spec]
    rcases List.mem_cons.mp h with rfl | h
    · omega
    · obtain rfl := List.mem_singleton.mp h
      omega
  | call f args =>
    have hlt := List.sizeOf_lt_of_mem (show child ∈ args from h)
    simp only [call.sizeOf_spec]
    omega
  | _ => cases h

/-- What holds of an expression if it holds of its children holds of every expression. -/
theorem children_induction {P : Expr → Prop} (step : ∀ e, (∀ child ∈ e.children, P child) → P e) (e : Expr) : P e :=
  step e fun child _ => children_induction step child
termination_by sizeOf e
decreasing_by exact sizeOf_lt_of_mem_children ‹_›

theorem inOrder_preorderAll {es : List Expr} (h : ∀ e ∈ es, InOrder e.node? (preorder e)) :
    InOrder (nodeAmong? es) (preorderAll es) := by
  induction es with
  | nil => exact .nil fun place => by cases place <;> rfl
  | cons e es ih =>
    exact .append rfl rfl (fun _ => rfl) (fun _ _ => rfl) (h e List.mem_cons_self)
      (ih fun e he => h e (List.mem_cons_of_mem _ he))

/-- The traversal lists every node once, in the order of the places. -/
theorem inOrder_preorder (e : Expr) : InOrder e.node? (preorder e) := by
  -- on the children, since the traversal goes on with these in the same way whatever the node is
  induction e using children_induction with
  | step e ih =>
    rw [preorder_eq]
    exact .cons (nodeAmong? e.children) rfl rfl (fun _ _ => rfl) (inOrder_preorderAll ih)

theorem exists_node?_iff {e node : Expr} : (∃ place, e.node? place = some node) ↔ node ∈ preorder e := by
  obtain ⟨places, -, hmem, hnodes⟩ := inOrder_preorder e
  have hiff : node ∈ preorder e ↔ some node ∈ places.map e.node? := by
    rw [← hnodes, List.mem_map_of_injective fun _ _ => Option.some.inj]
  rw [hiff, List.mem_map]
  refine exists_congr fun place => ⟨fun h => ⟨(hmem place).mpr (by rw [h]; rfl), h⟩, And.right⟩

/-! ### The loop -/

/-- A turn of the loop pushes the children of a node so that the traversal goes on with them. -/
theorem preorderAll_reverse_pushChildren (stack : Array Expr) (e : Expr) :
    preorderAll (stack.toList ++ [e]).reverse = e :: preorderAll (pushChildren stack e).toList.reverse := by
  rw [toList_pushChildren, List.reverse_append, List.reverse_append, List.reverse_reverse, List.reverse_singleton,
    List.singleton_append, preorderAll, preorder_eq, preorderAll_append, List.cons_append]

/-- Whatever is on the stack, the loop shows the visitor the nodes of the trees as the traversal lists them. -/
theorem visitAll_eq {α : Type} (visitor : α → Expr → α) (stack : Array Expr) (noted : α) :
    visitAll visitor stack noted = (preorderAll stack.toList.reverse).foldl visitor noted := by
  fun_induction visitAll visitor stack noted with
  | case1 stack noted hback =>
    obtain rfl : stack = #[] := by simpa using hback
    rfl
  | case2 stack noted e hback ih =>
    rw [ih, toList_eq_of_back? hback, preorderAll_reverse_pushChildren, List.foldl_cons]

theorem visit_eq {α : Type} (e : Expr) (visitor : α → Expr → α) (start : α) :
    e.visit visitor start = (preorder e).foldl visitor start := by
  rw [visit, visitAll_eq]
  exact congrArg _ (List.append_nil _)

theorem foldl_noteReference (nodes : List Expr) (noted : Array Reference) :
    (nodes.foldl noteReference noted).toList = noted.toList ++ nodes.filterMap reference? := by
  induction nodes generalizing noted with
  | nil => simp
  | cons node nodes ih =>
    rw [List.foldl_cons, ih]
    cases node <;> simp [noteReference, reference?, List.filterMap_cons]

theorem foldl_noteCall (name : String) (nodes : List Expr) (noted : Bool) :
    nodes.foldl (noteCall name) noted = (noted || nodes.any (isCallOf name)) := by
  induction nodes generalizing noted with
  | nil => simp
  | cons node nodes ih =>
    rw [List.foldl_cons, ih]
    cases node <;> simp [noteCall, isCallOf, Bool.or_assoc]

end Expr

/-! ### References among tokens -/

/-- The references among tokens, from left to right; `sheet` is the sheet name in front of them, if there is one. -/
def readReferences (sheet : Option String) : List TokenKind → List Reference
  | [] => []
  | .sheet name :: ks => readReferences (some name) ks
  | .address a :: .colon :: .address b :: ks => .range sheet ⟨a, b⟩ :: readReferences none ks
  | .address a :: ks => .cell sheet a :: readReferences none ks
  | _ :: ks => readReferences none ks

/-- Whether a reference can begin with the token. -/
def TokenKind.opensReference : TokenKind → Bool
  | sheet _ => true
  | address _ => true
  | _ => false

theorem readReferences_cons {k : TokenKind} (h : k.opensReference = false) (sheet : Option String)
    (ks : List TokenKind) : readReferences sheet (k :: ks) = readReferences none ks := by
  cases k <;> first | rfl | cases h

theorem readReferences_address (sheet : Option String) (a : Address) {ks : List TokenKind}
    (h : ks.head? ≠ some .colon) :
    readReferences sheet (.address a :: ks) = .cell sheet a :: readReferences none ks := by
  rw [readReferences]
  rintro b rest rfl
  exact h rfl

/-- The references are all that the tokens show, whatever follows them; a colon would make a range of a cell. -/
def Shows (ks : List TokenKind) (rs : List Reference) : Prop :=
  ∀ rest, rest.head? ≠ some .colon → readReferences none (ks ++ rest) = rs ++ readReferences none rest

namespace Shows
variable {ks others : List TokenKind} {rs ss : List Reference} {k : TokenKind}

theorem nil : Shows [] [] :=
  fun _ _ => rfl

theorem cons (hk : k.opensReference = false) (h : Shows ks rs) : Shows (k :: ks) rs :=
  fun rest hrest => (readReferences_cons hk none (ks ++ rest)).trans (h rest hrest)

theorem append (h : Shows ks rs) (hk : k ≠ .colon) (hcons : Shows (k :: others) ss) :
    Shows (ks ++ k :: others) (rs ++ ss) := by
  intro rest hrest
  have hhead : (k :: others ++ rest).head? ≠ some .colon := fun heq => hk (Option.some.inj heq)
  rw [List.append_assoc, h _ hhead, hcons rest hrest, List.append_assoc]

theorem parenthesizedIf (h : Shows ks rs) (needed : Bool) : Shows (parenthesizedIf needed ks) rs := by
  cases needed with
  | false => exact h
  | true =>
    have hinner := h.append (show TokenKind.rightParen ≠ .colon by decide) (cons rfl nil)
    rw [List.append_nil] at hinner
    exact cons rfl hinner

theorem reference (r : Reference) : Shows r.layout [r] := by
  intro rest hrest
  cases r with
  | cell sheet a => cases sheet <;> exact readReferences_address _ a hrest
  | range sheet r => cases sheet <;> rfl

end Shows

namespace Expr

theorem opensReference_token (op : BinaryOp) : op.token.opensReference = false ∧ op.token ≠ .colon := by
  cases op <;> decide

mutual

/-- The layout of an expression shows the references of its nodes. What follows an operand is an operator, a comma or a
    parenthesis, so no cell is taken for the first corner of a range. -/
theorem shows_layout (e : Expr) : Shows e.layout ((preorder e).filterMap reference?) := by
  cases e with
  | reference r => exact .reference r
  | unary op x =>
    have hop : op.token.opensReference = false := by cases op <;> rfl
    exact .cons hop ((shows_layout x).parenthesizedIf _)
  | binary op l r =>
    obtain ⟨hop, hcolon⟩ := opensReference_token op
    have happ := ((shows_layout l).parenthesizedIf (parenthesizedLeft op l)).append hcolon
      (.cons hop ((shows_layout r).parenthesizedIf (parenthesizedRight op r)))
    rwa [← List.filterMap_append] at happ
  | call f args =>
    have happ := (shows_layoutArguments args).append (show TokenKind.rightParen ≠ .colon by decide) (.cons rfl .nil)
    rw [List.append_nil] at happ
    exact .cons rfl (.cons rfl happ)
  | _ => exact .cons rfl .nil

theorem shows_layoutArguments (es : List Expr) :
    Shows (layoutArguments es) ((preorderAll es).filterMap reference?) := by
  cases es with
  | nil => exact .nil
  | cons e es =>
    rw [preorderAll, List.filterMap_append]
    cases es with
    | nil =>
      rw [preorderAll, List.filterMap_nil, List.append_nil]
      exact shows_layout e
    | cons f fs =>
      exact (shows_layout e).append (by decide) (.cons rfl (shows_layoutArguments (f :: fs)))

end

theorem readReferences_layout (e : Expr) {rest : List TokenKind} (hrest : rest.head? ≠ some .colon) :
    readReferences none (e.layout ++ rest) = e.references ++ readReferences none rest := by
  rw [shows_layout e rest hrest, references, walk_singleton]

/-- The canonical text of a formula is scanned as the layout that it was written from. -/
theorem exists_tokens_toText {e : Expr} (h : Legible e) (hslash : NoErrorBeforeSlash e.layout) :
    ∃ ts, tokens e.toText = .ok ts ∧ ts.map Token.kind = e.layout ++ [.stop] := by
  have hchain := h.reading.isChain (.singleton _) (by rintro _ ⟨⟩; rfl)
  have htext : e.toText.toList = writtenChars e.layout := by
    have hcons := e.toList_toText
    rw [String.toList_append] at hcons
    exact (List.cons.inj hcons).2
  rw [tokens, htext]
  exact tokensFrom_written h.lexical (separated_of_isChain hchain h.lexical hslash) 0

/-! ### The walk -/

/-- The walk lists each node of a formula once, a node before its children and these from left to right, as the
    traversal by recursion does; and these are the nodes that the loop shows a visitor, whatever it notes. So the
    references are those that stand in the formula, in the order in which the canonical text shows them, and a function
    is called exactly if some node calls it, wherever it stands. -/
theorem walk_inOrder (e : Expr) :
    (walk [e] = preorder e ∧ ∀ nodes, InOrder e.node? nodes ↔ nodes = walk [e]) ∧
      (∀ (α : Type) (visitor : α → Expr → α) (start : α), e.visit visitor start = (walk [e]).foldl visitor start) ∧
      ((e.visit noteReference #[]).toList = e.references ∧
        ∀ rs, InOrder (fun place => (e.node? place).bind reference?) rs ↔ rs = e.references) ∧
      (readReferences none e.layout = e.references ∧
        ∀ s, Expr.parse s = .ok e → NoErrorBeforeSlash e.layout →
          ∃ ts, tokens e.toText = .ok ts ∧ readReferences none (ts.map Token.kind) = e.references) ∧
      ∀ name, e.visit (noteCall name) false = e.calls name ∧
        (e.calls name = true ↔ ∃ place f args, e.node? place = some (.call f args) ∧ Text.SameName f name) := by
  have hnodes : InOrder e.node? (walk [e]) := walk_singleton e ▸ inOrder_preorder e
  have hreferences : InOrder (fun place => (e.node? place).bind reference?) e.references := hnodes.filterMap reference?
  refine ⟨⟨walk_singleton e, fun nodes => ⟨fun h => h.unique hnodes, fun h => h ▸ hnodes⟩⟩, fun α visitor start => ?_,
    ⟨?_, fun rs => ⟨fun h => h.unique hreferences, fun h => h ▸ hreferences⟩⟩, ⟨?_, fun s hs hslash => ?_⟩,
    fun name => ⟨?_, ?_⟩⟩
  · rw [visit_eq, walk_singleton]
  · rw [visit_eq, foldl_noteReference, references, walk_singleton]
    exact List.nil_append _
  · have hread := readReferences_layout e (show [].head? ≠ some TokenKind.colon by simp)
    rwa [List.append_nil, readReferences, List.append_nil] at hread
  · obtain ⟨ts, hts, hkinds⟩ := exists_tokens_toText (.of_parse hs) hslash
    refine ⟨ts, hts, ?_⟩
    rw [hkinds, readReferences_layout e (by decide)]
    exact List.append_nil _
  · rw [visit_eq, foldl_noteCall, calls, walk_singleton, Bool.false_or]
  · rw [calls_iff]
    constructor
    · rintro ⟨f, args, hmem, hsame⟩
      obtain ⟨place, hplace⟩ := exists_node?_iff.mpr hmem
      exact ⟨place, f, args, hplace, hsame⟩
    · rintro ⟨place, f, args, hplace, hsame⟩
      exact ⟨f, args, exists_node?_iff.mp ⟨place, hplace⟩, hsame⟩

/-- References under a sign, in a call and in a call inside it: a range from its last corner to its first, and a cell
    that stands there twice. -/
theorem walk_inOrder_arguments :
    ∃ e, Expr.parse "= -B1 + Sum(Data!C2:A1, If(B1, $D4)) " = .ok e ∧ NoErrorBeforeSlash e.layout ∧
      ∃ ts, tokens e.toText = .ok ts ∧ readReferences none (ts.map Token.kind) = e.references ∧
        e.references = [.cell none (.relative 0 1), .range (some "Data") ⟨.relative 0 0, .relative 1 2⟩,
          .cell none (.relative 0 1), .cell none ⟨3, 3, false, true⟩] := by
  have h : Expr.parse "= -B1 + Sum(Data!C2:A1, If(B1, $D4)) " = .ok (.binary .add
      (.unary .negate (.reference (.cell none (.relative 0 1))))
      (.call "Sum" [.reference (.range (some "Data") ⟨.relative 0 0, .relative 1 2⟩),
        .call "If" [.reference (.cell none (.relative 0 1)), .reference (.cell none ⟨3, 3, false, true⟩)]])) := by cbv
  obtain ⟨ts, hts, hread⟩ := (walk_inOrder _).2.2.2.1.2 _ h (by decide)
  exact ⟨_, h, by decide, ts, hts, hread, by rw [references, walk_singleton]; rfl⟩

end Expr

end Spreadsheet
