import Spreadsheet.Proofs.Evaluation.ShortCircuit
import Spreadsheet.Proofs.Formula.Relocation

/-! # Ranges in parts

The built-in functions that take blocks look at the items of their arguments one after another, and not at where one
argument ends and the next one begins (`Expr.evaluateAt_congr_of_stream`). So a range and its upper and lower rows, as
two arguments in its place, are the same to them. -/

namespace Spreadsheet

/-! ### Parts of a block -/

namespace Block
variable {b : Block} {row : Nat}

/-- The rows of a block before a given one. -/
def above (b : Block) (row : Nat) : Block :=
  { b with bottom := row - 1 }

/-- The rows of a block from a given one on. -/
def below (b : Block) (row : Nat) : Block :=
  { b with top := row }

theorem cells_above_append_below (htop : b.top < row) (hbottom : row ≤ b.bottom) :
    (b.above row).cells ++ (b.below row).cells = b.cells := by
  have hrows : b.rows = (b.above row).rows + (b.below row).rows := by
    simp only [rows, above, below]
    omega
  have hnext : row = b.top + (b.above row).rows := by
    simp only [rows, above]
    omega
  have hrange : List.range' b.top (b.above row).rows ++ List.range' row (b.below row).rows =
      List.range' b.top b.rows := by
    rw [hrows, ← List.range'_append_1, ← hnext]
  rw [cells, cells, cells, ← hrange, List.flatMap_append]
  rfl

theorem size_above_le (htop : b.top < row) (hbottom : row ≤ b.bottom) : (b.above row).size ≤ b.size := by
  refine Nat.mul_le_mul_right b.columns ?_
  simp only [rows, above]
  omega

theorem size_below_le (htop : b.top < row) : (b.below row).size ≤ b.size := by
  refine Nat.mul_le_mul_right b.columns ?_
  simp only [rows, below]
  omega

end Block

namespace Resolver
variable {t : Resolver} {b : Block} {row : Nat}

/-- The references mean the rows of a block before a given one, and those from it on. -/
structure SplitsAt (t : Resolver) (b : Block) (row : Nat) (upper lower : Reference) : Prop where
  upper : t.resolve upper = .ok (.block (b.above row))
  lower : t.resolve lower = .ok (.block (b.below row))

/-- An address that does not move. -/
def fixed (row column : Nat) : Address :=
  ⟨row, column, true, true⟩

theorem lands_fixed {column : Nat} (hrow : row < rowCount) (hcolumn : column < columnCount) :
    t.Lands (fixed row column) := by
  simp only [Lands, Resolver.row, Resolver.column, fixed, if_true]
  omega

theorem resolve_fixed {name : Option String} (hsheet : t.sheet name = .ok b.sheet) (hrows : b.top ≤ b.bottom)
    (hcolumns : b.left ≤ b.right) (hbottom : b.bottom < rowCount) (hright : b.right < columnCount) :
    t.resolve (.range name ⟨fixed b.top b.left, fixed b.bottom b.right⟩) = .ok (.block b) := by
  have hblock : t.blockOf b.sheet (fixed b.top b.left) (fixed b.bottom b.right) = b := by
    simp [blockOf, Block.spanning, Resolver.row, Resolver.column, fixed, hrows, hcolumns]
  refine resolve_range_eq_ok_iff.mpr ⟨b.sheet, hsheet, ⟨lands_fixed ?_ ?_, lands_fixed hbottom hright⟩, by rw [hblock]⟩
  · exact Nat.lt_of_le_of_lt hrows hbottom
  · exact Nat.lt_of_le_of_lt hcolumns hright

theorem exists_splitsAt {r : Reference} (h : t.resolve r = .ok (.block b)) (htop : b.top < row)
    (hbottom : row ≤ b.bottom) : ∃ upper lower, t.SplitsAt b row upper lower := by
  cases r with
  | cell name a =>
    obtain ⟨-, -, -, ⟨⟩⟩ := resolve_cell_eq_ok_iff.mp h
  | range name range =>
    obtain ⟨sheet, hsheet, ⟨hfirst, hlast⟩, hblock⟩ := resolve_range_eq_ok_iff.mp h
    cases hblock
    simp only [Lands] at hfirst hlast
    simp only [blockOf, Block.spanning] at htop hbottom
    -- The corners may be relative to the cell: the parts are written with fixed ones.
    refine ⟨_, _, resolve_fixed hsheet ?_ ?_ ?_ ?_, resolve_fixed hsheet ?_ ?_ ?_ ?_⟩ <;>
      simp only [Block.above, Block.below, blockOf, Block.spanning] <;> omega

end Resolver

/-! ### Functions of items -/

namespace Item

/-- The numbers that an item contributes. In a block, what is no number contributes none. -/
def numbers : Item → Except ErrorValue (List Number)
  | ⟨v, false⟩ => v.toNumber.map ([·])
  | ⟨.number n, true⟩ => .ok [n]
  | ⟨_, true⟩ => .ok []

def allNumbers : List Item → Except ErrorValue (List Number)
  | [] => .ok []
  | i :: items => do
    let ns ← i.numbers
    let others ← allNumbers items
    return ns ++ others

theorem allNumbers_append (xs ys : List Item) : allNumbers (xs ++ ys) = do
    let ms ← allNumbers xs
    let ns ← allNumbers ys
    return ms ++ ns := by
  induction xs with
  | nil =>
    cases h : allNumbers ys <;> simp [allNumbers, h, bind, Except.bind, pure, Except.pure]
  | cons i xs ih =>
    rw [List.cons_append, allNumbers, ih, allNumbers]
    cases i.numbers with
    | error x => rfl
    | ok ns =>
      cases allNumbers xs with
      | error x => rfl
      | ok ms => cases allNumbers ys <;> simp [bind, Except.bind, pure, Except.pure]

end Item

namespace Argument

theorem numbers_eq (a : Argument) : a.numbers = Item.allNumbers a.items := by
  cases a with
  | value v =>
    show v.toNumber.map ([·]) = Item.allNumbers [⟨v, false⟩]
    simp only [Item.allNumbers, Item.numbers]
    cases v.toNumber <;> rfl
  | block b =>
    show Except.ok _ = Item.allNumbers (b.values.map (⟨·, true⟩))
    induction b.values with
    | nil => rfl
    | cons v vs ih =>
      rw [List.map_cons, Item.allNumbers, ← ih]
      cases v <;> rfl

theorem allNumbers_eq (args : List Argument) : allNumbers args = Item.allNumbers (args.flatMap items) := by
  induction args with
  | nil => rfl
  | cons a args ih =>
    rw [List.flatMap_cons, Item.allNumbers_append, ← ih, ← numbers_eq]
    unfold allNumbers
    rw [List.mapM_cons]
    cases a.numbers with
    | error x => rfl
    | ok ns => cases args.mapM numbers <;> rfl

theorem flatMap_values_eq (args : List Argument) : args.flatMap values = (args.flatMap items).map Item.value := by
  rw [List.map_flatMap]
  refine congrArg (args.flatMap ·) (funext fun a => ?_)
  rw [items, List.map_map]
  exact (List.map_id _).symm

end Argument

namespace Builtin

/-- What a function makes of arguments depends on their items only. -/
def SeesItems (run : List Argument → CallSite → Except Fault Value) : Prop :=
  ∀ as bs site, as.flatMap Argument.items = bs.flatMap Argument.items → run as site = run bs site

/-- The built-in functions that take blocks. -/
def blockTakers : List String :=
  ["SUM", "PRODUCT", "AVERAGE", "MIN", "MAX", "COUNT", "COUNTA", "CONCAT", "AND", "OR"]

theorem seesItems_of_mem {f : Callable} (hf : f ∈ all) (hname : f.name ∈ blockTakers)
    {run : List Argument → CallSite → Except Fault Value} (hbody : f.body = .eager run) : SeesItems run := by
  simp only [all, arithmetic, logical, inspection, textual, List.map_cons, List.map_nil, List.cons_append,
    List.nil_append, List.mem_cons, List.not_mem_nil, or_false] at hf
  -- Of all built-in functions, the eager ones that take blocks remain.
  repeat' rcases hf with rfl | hf
  all_goals first | exact absurd hname (by decide) | cases hbody
  all_goals
    intro as bs site h
    simp only [sum, product, average, minimum, maximum, count, countFilled, countWhere, concatenation,
      Argument.allNumbers_eq, Argument.flatMap_values_eq, h]

/-- All arguments are of one kind, which takes blocks, and there may be any number of them from one on. -/
structure TakesBlocks (f : Callable) (kind : ParameterKind) : Prop where
  parameters : f.parameters = [kind]
  acceptsBlock : kind.acceptsBlock = true
  minimum : f.minimum = 1
  maximum : f.maximum = none

theorem takesBlocks_of_mem {f : Callable} (hf : f ∈ all) (hname : f.name ∈ blockTakers) :
    TakesBlocks f (f.parameterAt 0) := by
  have hall : ∀ f ∈ all, f.name ∈ blockTakers → f.parameters = [f.parameterAt 0] ∧
      (f.parameterAt 0).acceptsBlock = true ∧ f.minimum = 1 ∧ f.maximum = none := by decide
  obtain ⟨hparameters, haccepts, hminimum, hmaximum⟩ := hall f hf hname
  exact ⟨hparameters, haccepts, hminimum, hmaximum⟩

theorem junction_of_lazy {f : Callable} (hf : f ∈ all) (hname : f.name ∈ blockTakers)
    {run : LazyCall → Except Fault Value} (hbody : f.body = .lazy run) :
    f.parameterAt 0 = .anyOrBlock ∧ ∃ decisive, f.name = junction decisive := by
  have hall : ∀ f ∈ all, f.name ∈ blockTakers → f.body.isLazy = true →
      f.parameterAt 0 = .anyOrBlock ∧ (f.name = "AND" ∨ f.name = "OR") := by decide
  obtain ⟨hkind, hand | hor⟩ := hall f hf hname (by rw [hbody]; rfl)
  · exact ⟨hkind, false, hand⟩
  · exact ⟨hkind, true, hor⟩

/-- Those functions take blocks that have a parameter for them. -/
theorem mem_blockTakers_iff {f : Callable} (hf : f ∈ all) :
    f.name ∈ blockTakers ↔ ∃ index, (f.parameterAt index).acceptsBlock = true := by
  have hall : ∀ f ∈ all, f.name ∉ blockTakers → ∀ kind ∈ f.parameters, kind.acceptsBlock = false := by decide
  constructor
  · exact fun hname => ⟨0, (takesBlocks_of_mem hf hname).acceptsBlock⟩
  · rintro ⟨index, hindex⟩
    by_contra hname
    unfold Callable.parameterAt at hindex
    split at hindex
    · rename_i kind hkind
      cases (hall f hf hname _ (List.mem_of_getElem? hkind)).symm.trans hindex
    · rename_i kind _ hkind
      cases (hall f hf hname _ (List.mem_of_getLast? hkind)).symm.trans hindex
    · cases hindex

end Builtin

/-! ### Arguments as items -/

/-- The items of arguments, before those of others that follow them. -/
def prepend (items : List Item) :
    Except Fault (Except ErrorValue (List Item)) → Except Fault (Except ErrorValue (List Item)) :=
  Except.map (Except.map (items ++ ·))

theorem prepend_nil (rest : Except Fault (Except ErrorValue (List Item))) : prepend [] rest = rest := by
  rcases rest with _ | _ | _ <;> rfl

theorem prepend_cons (i : Item) (items : List Item) (rest : Except Fault (Except ErrorValue (List Item))) :
    prepend (i :: items) rest = prepend [i] (prepend items rest) := by
  rcases rest with _ | _ | _ <;> rfl

/-- The items that a function receives which takes all arguments at once: none if one of them is an error, unless the
    function absorbs errors. -/
def gather (absorbs : Bool) : List (Except Fault Item) → Except Fault (Except ErrorValue (List Item))
  | [] => .ok (.ok [])
  | .error fault :: _ => .error fault
  | .ok i :: rest =>
    match if absorbs then none else i.value.error? with
    | some x => .ok (.error x)
    | none => prepend [i] (gather absorbs rest)

theorem gather_items (absorbs : Bool) (items : List Item) (rest : List (Except Fault Item)) :
    gather absorbs (items.map .ok ++ rest) =
      match if absorbs then none else Value.firstError (items.map Item.value) with
      | some x => .ok (.error x)
      | none => prepend items (gather absorbs rest) := by
  induction items with
  | nil => cases absorbs <;> exact (prepend_nil _).symm
  | cons i items ih =>
    rw [List.map_cons, List.cons_append, gather, ih, prepend_cons i items]
    cases absorbs with
    | true => rfl
    | false =>
      simp only [Bool.false_eq_true, if_false, List.map_cons, Value.firstError, List.findSome?_cons]
      cases i.value.error? with
      | some x => rfl
      | none =>
        dsimp only
        cases (items.map Item.value).findSome? Value.error? <;> rfl

namespace Expr
variable {s : Setting} {f : Callable} {kind : ParameterKind} {depth : Nat}

/-- The items of the arguments that an eager function receives are gathered from the stream. -/
theorem evaluateArguments_items (hf : f.parameters = [kind]) (index : Nat) (es : List Expr) :
    (evaluateArguments s f depth index es).map (Except.map (List.flatMap Argument.items)) =
      gather f.absorbsErrors (s.stream kind depth es) := by
  induction es generalizing index with
  | nil => rw [evaluateArguments]; rfl
  | cons e es ih =>
    rw [evaluateArguments, Callable.parameterAt_singleton hf, Setting.stream, List.flatMap_cons, ← Setting.stream]
    cases evaluateAt s depth e with
    | error fault => rfl
    | ok a =>
      have hvalues : (kind.coerce a).items.map Item.value = (kind.coerce a).values := by
        rw [Argument.items, List.map_map]
        exact List.map_id _
      dsimp only
      rw [gather_items, hvalues, ← ih (index + 1)]
      cases if f.absorbsErrors = true then none else Value.firstError (kind.coerce a).values with
      | some x => rfl
      | none => rcases evaluateArguments s f depth (index + 1) es with _ | _ | _ <;> rfl

theorem evaluateAt_eager_congr {name : String} {run : List Argument → CallSite → Except Fault Value} {as bs : List Expr}
    (hfind : s.library.find? name = some f) (hbody : f.body = .eager run) (hrun : Builtin.SeesItems run)
    (hf : f.parameters = [kind]) (ha : f.AcceptsCount as.length) (hb : f.AcceptsCount bs.length)
    (h : s.stream kind (depth + 1) as = s.stream kind (depth + 1) bs) :
    evaluateAt s depth (.call name as) = evaluateAt s depth (.call name bs) := by
  have hitems := (evaluateArguments_items hf 0 as).trans (h ▸ (evaluateArguments_items hf 0 bs).symm)
  simp only [evaluateAt, hfind, ha, hb, not_true_eq_false, if_false, hbody]
  split
  · rfl
  revert hitems
  rcases evaluateArguments s f (depth + 1) 0 as with _ | _ | values <;>
    rcases evaluateArguments s f (depth + 1) 0 bs with _ | _ | others <;>
    simp only [Except.map, reduceCtorEq, false_implies, Except.error.injEq, Except.ok.injEq]
  · rintro rfl
    rfl
  · rintro rfl
    rfl
  · intro hitems
    rw [hrun values others _ hitems]

theorem evaluateAt_congr_of_stream {name other : String} (hf : f ∈ Builtin.all) (hname : f.name ∈ Builtin.blockTakers)
    (hfind : s.library.find? name = some (f.renamed other)) (hdepth : depth ≤ s.limits.maxDepth) {as bs : List Expr}
    (ha : as ≠ []) (hb : bs ≠ [])
    (h : s.stream (f.parameterAt 0) (depth + 1) as = s.stream (f.parameterAt 0) (depth + 1) bs) :
    evaluateAt s depth (.call name as) = evaluateAt s depth (.call name bs) := by
  have htakes := Builtin.takesBlocks_of_mem hf hname
  cases hbody : f.body with
  | eager run =>
    have hcount {es : List Expr} (hes : es ≠ []) : (f.renamed other).AcceptsCount es.length := by
      refine ⟨htakes.minimum.trans_le (List.length_pos_iff.mpr hes), fun most hmost => ?_⟩
      cases htakes.maximum.symm.trans hmost
    exact evaluateAt_eager_congr hfind hbody (Builtin.seesItems_of_mem hf hname hbody) htakes.parameters (hcount ha)
      (hcount hb) h
  | lazy run =>
    obtain ⟨hkind, decisive, hdecisive⟩ := Builtin.junction_of_lazy hf hname hbody
    have hmeans : s.Means name (Builtin.junction decisive) := ⟨f, hf, hdecisive, other, hfind⟩
    rw [hkind] at h
    rw [evaluateAt_junction hmeans hdepth ha, evaluateAt_junction hmeans hdepth hb, h]

/-! ### Ranges -/

theorem stream_block (hkind : kind.acceptsBlock = true) (hdepth : depth ≤ s.limits.maxDepth) {r : Reference} {b : Block}
    (hresolve : s.resolver.resolve r = .ok (.block b)) (hsize : b.size ≤ s.limits.maxBlockCells) :
    s.stream kind depth [.reference r] = b.cells.map fun l => .ok ⟨s.source l, true⟩ := by
  have hread : s.read r = .block (BlockValues.read b s.source) := by
    rw [Setting.read, hresolve]
    exact if_neg (Nat.not_lt.mpr hsize)
  have hcoerce : kind.coerce (.block (BlockValues.read b s.source)) = .block (BlockValues.read b s.source) :=
    if_pos hkind
  simp only [Setting.stream, List.flatMap_singleton, evaluateAt, if_neg (Nat.not_lt.mpr hdepth), hread, hcoerce]
  rw [Argument.items, Argument.values, BlockValues.read, List.map_map, List.map_map]
  rfl

theorem stream_split (hkind : kind.acceptsBlock = true) (hdepth : depth ≤ s.limits.maxDepth) {r upper lower : Reference}
    {b : Block} {row : Nat} (hresolve : s.resolver.resolve r = .ok (.block b)) (hsize : b.size ≤ s.limits.maxBlockCells)
    (htop : b.top < row) (hbottom : row ≤ b.bottom) (h : s.resolver.SplitsAt b row upper lower) :
    s.stream kind depth [.reference r] = s.stream kind depth [.reference upper, .reference lower] := by
  have hupper := Nat.le_trans (Block.size_above_le htop hbottom) hsize
  have hlower := Nat.le_trans (Block.size_below_le htop) hsize
  rw [Setting.stream_cons (.reference upper), stream_block hkind hdepth hresolve hsize,
    stream_block hkind hdepth h.upper hupper, stream_block hkind hdepth h.lower hlower, ← List.map_append,
    Block.cells_above_append_below htop hbottom]

/-- The built-in functions that take blocks do not tell a range from its upper and lower parts, wherever it is divided
    and whatever the other arguments are. -/
theorem evaluate_split (s : Setting) :
    (∀ f ∈ Builtin.all, f.name ∈ Builtin.blockTakers ↔ ∃ index, (f.parameterAt index).acceptsBlock = true) ∧
      ∀ (r : Reference) (b : Block) (row : Nat), s.resolver.resolve r = .ok (.block b) →
        b.size ≤ s.limits.maxBlockCells → b.top < row → row ≤ b.bottom →
          (∃ upper lower, s.resolver.SplitsAt b row upper lower) ∧
          ∀ builtin ∈ Builtin.blockTakers, ∀ name, s.Means name builtin → ∀ depth < s.limits.maxDepth,
            ∀ before after upper lower, s.resolver.SplitsAt b row upper lower →
              evaluateAt s depth (.call name (before ++ .reference r :: after)) =
                evaluateAt s depth (.call name (before ++ .reference upper :: .reference lower :: after)) := by
  refine ⟨fun f => Builtin.mem_blockTakers_iff, fun r b row hresolve hsize htop hbottom =>
    ⟨Resolver.exists_splitsAt hresolve htop hbottom, ?_⟩⟩
  rintro builtin hbuiltin name ⟨f, hf, rfl, other, hfind⟩ depth hdepth before after upper lower hsplit
  have hkind := (Builtin.takesBlocks_of_mem hf hbuiltin).acceptsBlock
  refine evaluateAt_congr_of_stream hf hbuiltin hfind (Nat.le_of_lt hdepth) (by simp) (by simp) ?_
  rw [Setting.stream_append, Setting.stream_append, Setting.stream_cons,
    stream_split hkind hdepth hresolve hsize htop hbottom hsplit, ← Setting.stream_append]
  rfl

/-- `SUM` of `A1:B3` and of `A1:B1` and `A2:B3`, between other arguments. -/
theorem evaluate_split_sum :
    let s : Setting := ⟨.builtin, fun l => .number (Number.ofNat l.row), .atCell ⟨["Sheet1"]⟩ ⟨0, 5, 5⟩, .standard⟩
    let range (top bottom : Nat) : Reference := .range none ⟨.relative top 0, .relative bottom 1⟩
    evaluateAt s 0 (.call "SUM" [.boolean true, .reference (range 0 2), .text "x"]) =
      evaluateAt s 0 (.call "SUM" [.boolean true, .reference (range 0 0), .reference (range 1 2), .text "x"]) := by
  intro s range
  have hsum : s.Means "SUM" "SUM" := s.means_builtin rfl (by decide)
  have hresolve : s.resolver.resolve (range 0 2) = .ok (.block ⟨0, 0, 0, 2, 1⟩) := by cbv
  have hsplit : s.resolver.SplitsAt ⟨0, 0, 0, 2, 1⟩ 1 (range 0 0) (range 1 2) := ⟨by cbv, by cbv⟩
  exact ((evaluate_split s).2 (range 0 2) _ 1 hresolve (by decide +kernel) Nat.one_pos (by decide)).2 "SUM" (by decide)
    "SUM" hsum 0 (by decide) [.boolean true] [.text "x"] (range 0 0) (range 1 2) hsplit

end Expr

end Spreadsheet
