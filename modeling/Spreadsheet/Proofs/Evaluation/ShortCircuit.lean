import Spreadsheet.Proofs.Evaluation.Contract
import Spreadsheet.Proofs.Evaluation.Faults

/-! # Functions that stop at a decision

`AND` and `OR` come to what a scan of the values of their arguments comes to (`verdict`), which the first fault, error
or decisive value ends. What stands after it, the branch that `IF` does not take and what `IFERROR` does not fall back
on can be anything. -/

namespace Spreadsheet

/-! ### The values of arguments, one after another -/

/-- A value that an argument contributes, and whether it does so as a cell of a block. -/
structure Item where
  value : Value
  inBlock : Bool

def Argument.items (a : Argument) : List Item :=
  a.values.map (⟨·, a.isBlock⟩)

namespace Item

/-- The truth value that `AND` and `OR` take an item for. A text in a block is none. -/
def truth? : Item → Option Bool
  | ⟨.boolean b, _⟩ => some b
  | ⟨.number n, _⟩ => some (!n.isZero)
  | ⟨.text t, false⟩ => Text.toLogical? (Text.trim t)
  | _ => none

/-- The error that `AND` and `OR` take an item for: its own, or `#VALUE` for a text that is no truth value. -/
def error? : Item → Option ErrorValue
  | ⟨.error x, _⟩ => some x
  | ⟨.text t, false⟩ => if (Text.toLogical? (Text.trim t)).isSome then none else some .value
  | _ => none

end Item

/-- The items of arguments of one kind in order, row by row in a block; an argument that cannot be evaluated is a
    fault. -/
def Setting.stream (s : Setting) (kind : ParameterKind) (depth : Nat) (es : List Expr) : List (Except Fault Item) :=
  es.flatMap fun e =>
    match e.evaluateAt s depth with
    | .error fault => [.error fault]
    | .ok a => (kind.coerce a).items.map .ok

namespace Builtin

/-- The function that one item with the `decisive` truth value is enough for. -/
def junction (decisive : Bool) : String :=
  if decisive then "OR" else "AND"

/-- The result that such a function has as soon as it comes across an item, if it needs no others. -/
def settled? (decisive : Bool) : Except Fault Item → Option (Except Fault Value)
  | .error fault => some (.error fault)
  | .ok i =>
    match i.error? with
    | some x => some (.ok (.error x))
    | none => if i.truth? = some decisive then some (.ok (.boolean decisive)) else none

def isLogical : Except Fault Item → Bool
  | .error _ => false
  | .ok i => i.truth?.isSome

/-- The first result that is settled. If none is, the other truth value, or `#VALUE` if no truth value was `seen`. -/
def verdict (decisive seen : Bool) (stream : List (Except Fault Item)) : Except Fault Value :=
  (stream.findSome? (settled? decisive)).getD
    (.ok (if seen || stream.any isLogical then .boolean !decisive else .error .value))

section Verdict
variable {decisive seen : Bool} {stream : List (Except Fault Item)}

theorem verdict_cons (x : Except Fault Item) : verdict decisive seen (x :: stream) =
    (settled? decisive x).getD (verdict decisive (seen || isLogical x) stream) := by
  unfold verdict
  rw [List.findSome?_cons, List.any_cons, Bool.or_assoc]
  cases settled? decisive x <;> rfl

theorem verdict_append_of_settled {before : List (Except Fault Item)}
    (h : ∃ x ∈ before, (settled? decisive x).isSome = true) :
    verdict decisive seen (before ++ stream) = verdict decisive seen before := by
  obtain ⟨result, hresult⟩ := Option.isSome_iff_exists.mp (List.findSome?_isSome_iff.mpr h)
  rw [verdict, verdict, List.findSome?_append, hresult]
  rfl

/-- A verdict is a truth value or an error, unless there is a fault in the stream. -/
theorem verdict_cases (decisive seen : Bool) (stream : List (Except Fault Item)) :
    (∃ b, verdict decisive seen stream = .ok (.boolean b)) ∨ (∃ x, verdict decisive seen stream = .ok (.error x)) ∨
      ∃ fault, verdict decisive seen stream = .error fault ∧ .error fault ∈ stream := by
  induction stream generalizing seen with
  | nil =>
    cases seen
    · exact .inr (.inl ⟨_, rfl⟩)
    · exact .inl ⟨_, rfl⟩
  | cons x stream ih =>
    rw [verdict_cons]
    cases x with
    | error fault => exact .inr (.inr ⟨fault, rfl, List.mem_cons_self⟩)
    | ok i =>
      rw [settled?]
      split
      · exact .inr (.inl ⟨_, rfl⟩)
      · split
        · exact .inl ⟨_, rfl⟩
        · refine (ih (seen || isLogical (.ok i))).imp_right (Or.imp_right ?_)
          rintro ⟨fault, hfault, hmem⟩
          exact ⟨fault, hfault, List.mem_cons_of_mem _ hmem⟩

/-! ### The scan of `AND` and `OR` -/

theorem vote_eq (v : Value) (inBlock : Bool) : Vote.of inBlock v =
    match Item.error? ⟨v, inBlock⟩, Item.truth? ⟨v, inBlock⟩ with
    | some x, _ => .veto x
    | none, some b => .cast b
    | none, none => .abstain := by
  cases v with
  | text t =>
    cases inBlock with
    | true => rfl
    | false =>
      simp only [Vote.of, Value.toLogical, Item.error?, Item.truth?, Bool.false_eq_true, if_false]
      cases Text.toLogical? (Text.trim t) <;> rfl
  | _ => rfl

/-- Going through the values of one argument settles the result, or leaves the rest to be gone through. -/
theorem verdict_items (inBlock : Bool) (vs : List Value) :
    verdict decisive seen (vs.map (fun v => .ok ⟨v, inBlock⟩) ++ stream) =
      match poll decisive inBlock seen vs with
      | .error v => .ok v
      | .ok seen => verdict decisive seen stream := by
  induction vs generalizing seen with
  | nil => rfl
  | cons v vs ih =>
    rw [List.map_cons, List.cons_append, verdict_cons, poll, vote_eq, settled?, isLogical]
    cases Item.error? ⟨v, inBlock⟩ with
    | some x => rfl
    | none =>
      cases Item.truth? ⟨v, inBlock⟩ with
      | none =>
        simp only [reduceCtorEq, if_false, Option.getD_none, Option.isSome_none, Bool.or_false]
        exact ih
      | some b =>
        simp only [Option.some.injEq, Option.isSome_some, Bool.or_true]
        split
        · rfl
        · exact ih

end Verdict

end Builtin

/-! ### Functions by their names -/

/-- Names tell the built-in functions apart, whatever their case. -/
theorem Builtin.eq_of_sameName {f g : Callable} (hf : f ∈ all) (hg : g ∈ all) (h : Text.SameName f.name g.name) :
    f = g :=
  List.inj_on_of_nodup_map (by decide +kernel : (all.map fun f => Text.foldCase f.name).Nodup) hf hg h

theorem Library.find?_registerAll (l : Library) {fs : List Callable} {f : Callable} (hf : f ∈ fs)
    (h : ∀ g ∈ fs, Text.SameName g.name f.name → g = f) : (l.registerAll fs).find? f.name = some f := by
  induction fs using List.reverseRecOn with
  | nil => cases hf
  | append_singleton fs g ih =>
    rw [registerAll, List.foldl_append, List.foldl_cons, List.foldl_nil, find?_register, ← registerAll]
    split
    · rename_i hsame
      rw [h g (List.mem_append_right _ (List.mem_singleton_self g)) hsame]
    · rename_i hother
      refine ih ((List.mem_append.mp hf).resolve_right fun hlast => hother ?_) fun g' hg' =>
        h g' (List.mem_append_left _ hg')
      rw [List.mem_singleton.mp hlast]
      exact Text.SameName.refl _

theorem Library.find?_builtin {f : Callable} (hf : f ∈ Builtin.all) : builtin.find? f.name = some f :=
  find?_registerAll _ hf fun _ hg hsame => Builtin.eq_of_sameName hg hf hsame

/-- Under the name, the library has the built-in function that is called `builtin`. -/
def Setting.Means (s : Setting) (name builtin : String) : Prop :=
  ∃ f ∈ Builtin.all, f.name = builtin ∧ ∃ other, s.library.find? name = some (f.renamed other)

theorem Setting.Means.find? {s : Setting} {name : String} {f : Callable} (h : s.Means name f.name)
    (hf : f ∈ Builtin.all) : ∃ other, s.library.find? name = some (f.renamed other) := by
  obtain ⟨g, hg, hname, hfind⟩ := h
  obtain rfl := Builtin.eq_of_sameName hg hf (congrArg Text.foldCase hname)
  exact hfind

theorem Setting.means_builtin {s : Setting} (h : s.library = .builtin) {name : String}
    (hname : name ∈ Builtin.all.map Callable.name) : s.Means name name := by
  obtain ⟨f, hf, rfl⟩ := List.mem_map.mp hname
  exact ⟨f, hf, rfl, f.name, by rw [h]; exact Library.find?_builtin hf⟩

/-! ### Faults that are contained -/

namespace Limits
variable {limits : Limits}

theorem contain_ne_panic (h : limits.containPanics = true) (name : String) (result : Except Fault Value) :
    limits.contain name result ≠ .error .panic := by
  unfold contain
  split
  · rw [if_pos h]
    nofun
  · assumption

/-- Only a function that breaks off is contained. -/
theorem contain_eq_self {name : String} {result : Except Fault Value}
    (h : limits.containPanics = true → result ≠ .error .panic) : limits.contain name result = result := by
  unfold contain
  split
  · split
    · rename_i hpanics
      exact absurd rfl (h hpanics)
    · rfl
  · rfl

end Limits

namespace Expr
variable {s : Setting}

mutual

theorem evaluateAt_ne_panic (h : s.limits.containPanics = true) (depth : Nat) (e : Expr) :
    evaluateAt s depth e ≠ .error .panic := by
  have hcall {name : String} {outcome : Except Fault Value} :
      (s.limits.contain name outcome).map (fun v => Argument.value v.normalized) ≠ .error .panic := by
    have hne := Limits.contain_ne_panic h name outcome
    intro hpanic
    cases hresult : s.limits.contain name outcome with
    | error fault =>
      rw [hresult] at hne hpanic
      cases hpanic
      exact hne rfl
    | ok v =>
      rw [hresult] at hpanic
      cases hpanic
  by_cases hdepth : s.limits.maxDepth < depth
  · cases e <;> simp only [evaluateAt, if_pos hdepth] <;> nofun
  cases e with
  | unary op x =>
    have hx := evaluateAt_ne_panic h (depth + 1) x
    simp only [evaluateAt, if_neg hdepth]
    split
    · rename_i heq
      rintro ⟨⟩
      exact hx heq
    · nofun
  | binary op l r =>
    have hl := evaluateAt_ne_panic h (depth + 1) l
    have hr := evaluateAt_ne_panic h (depth + 1) r
    simp only [evaluateAt, if_neg hdepth]
    split
    · rename_i heq
      rintro ⟨⟩
      exact hl heq
    · split
      · rename_i heq
        rintro ⟨⟩
        exact hr heq
      · nofun
  | call name args =>
    simp only [evaluateAt, if_neg hdepth]
    split
    · nofun
    split
    · nofun
    split
    · have hargs := evaluateArguments_ne_panic h ‹Callable› (depth + 1) 0 args
      split
      · rename_i heq
        rintro ⟨⟩
        exact hargs heq
      · nofun
      · exact hcall
    · exact hcall
  | _ =>
    simp only [evaluateAt, if_neg hdepth]
    nofun

theorem evaluateArguments_ne_panic (h : s.limits.containPanics = true) (f : Callable) (depth index : Nat)
    (es : List Expr) : evaluateArguments s f depth index es ≠ .error .panic := by
  cases es with
  | nil =>
    rw [evaluateArguments]
    nofun
  | cons e es =>
    have he := evaluateAt_ne_panic h depth e
    have hes := evaluateArguments_ne_panic h f depth (index + 1) es
    simp only [evaluateArguments]
    split
    · rename_i heq
      rintro ⟨⟩
      exact he heq
    split
    · nofun
    split
    · rename_i heq
      rintro ⟨⟩
      exact hes heq
    · nofun
    · nofun

end

end Expr

/-! ### Calls of lazy functions -/

theorem Callable.parameterAt_singleton {f : Callable} {k : ParameterKind} (h : f.parameters = [k]) (index : Nat) :
    f.parameterAt index = k := by
  cases index with
  | zero => simp [parameterAt, h]
  | succ index => simp [parameterAt, h]

/-- The value of an expression where one value of some kind is wanted. -/
def Setting.single (s : Setting) (kind : ParameterKind) (depth : Nat) (e : Expr) : Except Fault Value :=
  (e.evaluateAt s depth).map fun a => (kind.coerce a).toValue

/-- The call that a lazy function sees. -/
def Setting.lazyCall (s : Setting) (f : Callable) (depth : Nat) (args : List Expr) : LazyCall where
  name := f.name
  cell := s.resolver.anchor
  count := args.length
  argument index :=
    match args[index]? with
    | none => .error (.failed f.name s!"no argument {index + 1}")
    | some e => (e.evaluateAt s depth).map (f.parameterAt index).coerce

theorem Setting.value_lazyCall {s : Setting} {f : Callable} {depth index : Nat} {args : List Expr} {e : Expr}
    (h : args[index]? = some e) : (s.lazyCall f depth args).value index = s.single (f.parameterAt index) depth e := by
  simp only [LazyCall.value, lazyCall, h, single]
  cases e.evaluateAt s depth <;> rfl

namespace Expr
variable {s : Setting} {depth : Nat}

theorem evaluateNth_eq_getElem? (es : List Expr) (index : Nat) :
    evaluateNth s depth es index = es[index]?.map (evaluateAt s depth) := by
  induction es generalizing index with
  | nil => rw [evaluateNth, List.getElem?_nil, Option.map_none]
  | cons e es ih =>
    cases index with
    | zero => rw [evaluateNth, List.getElem?_cons_zero, Option.map_some]
    | succ index => rw [evaluateNth, List.getElem?_cons_succ, ih]

variable {name : String} {f : Callable} {run : LazyCall → Except Fault Value}

theorem evaluateAt_lazy (hdepth : depth ≤ s.limits.maxDepth) (hfind : s.library.find? name = some f)
    (hbody : f.body = .lazy run) {args : List Expr} (hcount : f.AcceptsCount args.length) :
    evaluateAt s depth (.call name args) =
      (s.limits.contain f.name (run (s.lazyCall f (depth + 1) args))).map fun v => .value v.normalized := by
  simp only [evaluateAt, Nat.not_lt.mpr hdepth, hfind, hcount, not_true_eq_false, if_false, hbody]
  refine congrArg (fun call => (s.limits.contain f.name (run call)).map fun v => Argument.value v.normalized) ?_
  rw [Setting.lazyCall]
  congr 1
  funext index
  rw [evaluateNth_eq_getElem?]
  cases args[index]? with
  | none => rfl
  | some e =>
    dsimp only [Option.map_some]
    cases evaluateAt s (depth + 1) e <;> rfl

/-- Calls of a lazy function with as many arguments are alike if the function cannot tell them apart. -/
theorem evaluateAt_lazy_congr (hfind : s.library.find? name = some f) (hbody : f.body = .lazy run) {as bs : List Expr}
    (hlength : as.length = bs.length)
    (hrun : run (s.lazyCall f (depth + 1) as) = run (s.lazyCall f (depth + 1) bs)) :
    evaluateAt s depth (.call name as) = evaluateAt s depth (.call name bs) := by
  by_cases hdepth : depth ≤ s.limits.maxDepth
  · by_cases hcount : f.AcceptsCount as.length
    · rw [evaluateAt_lazy hdepth hfind hbody hcount, evaluateAt_lazy hdepth hfind hbody (hlength ▸ hcount), hrun]
    · have hother : ¬f.AcceptsCount bs.length := hlength ▸ hcount
      simp only [evaluateAt, hfind, hcount, hother, not_false_eq_true, if_true]
  · simp only [evaluateAt, Nat.not_le.mp hdepth, if_true]

end Expr

/-! ### `AND` and `OR` -/

section Junctions
variable {s : Setting} {kind : ParameterKind} {depth : Nat} {name : String} {decisive : Bool}

theorem Setting.stream_append (as bs : List Expr) :
    s.stream kind depth (as ++ bs) = s.stream kind depth as ++ s.stream kind depth bs :=
  List.flatMap_append

theorem Setting.stream_cons (e : Expr) (es : List Expr) :
    s.stream kind depth (e :: es) = s.stream kind depth [e] ++ s.stream kind depth es :=
  stream_append [e] es

theorem Setting.exists_of_mem_stream {fault : Fault} {es : List Expr} (h : .error fault ∈ s.stream kind depth es) :
    ∃ e ∈ es, e.evaluateAt s depth = .error fault := by
  obtain ⟨e, he, hmem⟩ := List.mem_flatMap.mp h
  cases hvalue : e.evaluateAt s depth with
  | error other =>
    rw [hvalue] at hmem
    cases List.mem_singleton.mp hmem
    exact ⟨e, he, hvalue⟩
  | ok a =>
    rw [hvalue] at hmem
    obtain ⟨i, -, hi⟩ := List.mem_map.mp hmem
    cases hi

/-- What `before` contributed is `seen`; the induction is on the arguments that are left. -/
theorem Builtin.pollArguments_eq_verdict {f : Callable} (hf : f.parameters = [.anyOrBlock]) (before after : List Expr)
    (seen : Bool) : pollArguments decisive (s.lazyCall f depth (before ++ after)) seen before.length after.length =
      verdict decisive seen (s.stream .anyOrBlock depth after) := by
  induction after generalizing before seen with
  | nil => cases seen <;> rfl
  | cons e after ih =>
    have hargument : (s.lazyCall f depth (before ++ e :: after)).argument before.length =
        (e.evaluateAt s depth).map ParameterKind.anyOrBlock.coerce := by
      simp only [Setting.lazyCall, List.getElem?_append_right (Nat.le_refl _), Nat.sub_self, List.getElem?_cons_zero,
        Callable.parameterAt_singleton hf]
    rw [List.length_cons, pollArguments, hargument, Setting.stream, List.flatMap_cons, ← Setting.stream]
    cases e.evaluateAt s depth with
    | error fault => rfl
    | ok a =>
      dsimp only [Except.map, Argument.items]
      rw [List.map_map, Function.comp_def, verdict_items]
      cases poll decisive _ seen _ with
      | error v => rfl
      | ok seen =>
        have hrest := ih (before ++ [e]) seen
        rwa [List.append_assoc, List.singleton_append, List.length_append, List.length_singleton] at hrest

theorem Setting.Means.junction (h : s.Means name (Builtin.junction decisive)) :
    ∃ f, s.library.find? name = some f ∧ f.minimum = 1 ∧ f.maximum = none ∧ f.parameters = [.anyOrBlock] ∧
      f.body = .lazy fun c => Builtin.pollArguments decisive c false 0 c.count := by
  cases decisive with
  | false =>
    obtain ⟨other, hfind⟩ := h.find?
      (f := (Callable.lazy "AND" 1 none Builtin.conjunction).withParameters [.anyOrBlock])
      (by simp [Builtin.all, Builtin.logical])
    exact ⟨_, hfind, rfl, rfl, rfl, rfl⟩
  | true =>
    obtain ⟨other, hfind⟩ := h.find?
      (f := (Callable.lazy "OR" 1 none Builtin.disjunction).withParameters [.anyOrBlock])
      (by simp [Builtin.all, Builtin.logical])
    exact ⟨_, hfind, rfl, rfl, rfl, rfl⟩

theorem Expr.evaluateAt_junction (h : s.Means name (Builtin.junction decisive))
    (hdepth : depth ≤ s.limits.maxDepth) {args : List Expr} (hargs : args ≠ []) :
    evaluateAt s depth (.call name args) =
      (Builtin.verdict decisive false (s.stream .anyOrBlock (depth + 1) args)).map Argument.value := by
  obtain ⟨f, hfind, hminimum, hmaximum, hparameters, hbody⟩ := h.junction
  have hcount : f.AcceptsCount args.length :=
    ⟨hminimum ▸ List.length_pos_iff.mpr hargs, fun most hmost => by rw [hmaximum] at hmost; cases hmost⟩
  rw [evaluateAt_lazy hdepth hfind hbody hcount]
  show (s.limits.contain f.name (Builtin.pollArguments decisive (s.lazyCall f (depth + 1) ([] ++ args)) false
    ([] : List Expr).length args.length)).map _ = _
  rw [Builtin.pollArguments_eq_verdict hparameters]
  rcases Builtin.verdict_cases decisive false (s.stream .anyOrBlock (depth + 1) args) with
    ⟨b, hb⟩ | ⟨x, hx⟩ | ⟨fault, hfault, hmem⟩
  · rw [hb]
    rfl
  · rw [hx]
    rfl
  · obtain ⟨e, -, he⟩ := Setting.exists_of_mem_stream hmem
    have huncontained : s.limits.containPanics = true → .error fault ≠ (.error .panic : Except Fault Value) := by
      rintro hpanics ⟨⟩
      exact evaluateAt_ne_panic hpanics _ e he
    rw [hfault, Limits.contain_eq_self huncontained]
    rfl

/-- One of the items of the arguments is enough for a result. -/
def Setting.Settles (s : Setting) (decisive : Bool) (depth : Nat) (es : List Expr) : Prop :=
  ∃ x ∈ s.stream .anyOrBlock depth es, (Builtin.settled? decisive x).isSome = true

/-- The arguments decide as soon as their first ones do. -/
theorem Expr.evaluateAt_junction_of_settles (h : s.Means name (Builtin.junction decisive)) {before : List Expr}
    {e : Expr} (hsettles : s.Settles decisive (depth + 1) (before ++ [e])) (after others : List Expr) :
    evaluateAt s depth (.call name (before ++ e :: after)) =
      evaluateAt s depth (.call name (before ++ e :: others)) := by
  by_cases hdepth : depth ≤ s.limits.maxDepth
  · have hverdict (es : List Expr) : evaluateAt s depth (.call name (before ++ e :: es)) =
        (Builtin.verdict decisive false (s.stream .anyOrBlock (depth + 1) (before ++ [e]))).map Argument.value := by
      rw [evaluateAt_junction h hdepth (by simp), List.append_cons, Setting.stream_append,
        Builtin.verdict_append_of_settled hsettles]
    rw [hverdict, hverdict]
  · simp only [evaluateAt, Nat.not_le.mp hdepth, if_true]

end Junctions

/-! ### `IF` and `IFERROR` -/

namespace Builtin
variable {c d : LazyCall}

theorem conditional_congr_of_ne_true (h : c.value 0 ≠ .ok (.boolean true)) (hcount : d.count = c.count)
    (hfirst : d.value 0 = c.value 0) (hthird : d.value 2 = c.value 2) : conditional d = conditional c := by
  unfold conditional
  rw [hcount, hfirst, hthird]
  split
  · rfl
  · rfl
  · exact absurd ‹_› h
  · rfl

theorem conditional_congr_of_not_false (h : ∀ v, c.value 0 = .ok v → v = .boolean true ∨ v.isError = true)
    (hfirst : d.value 0 = c.value 0) (hsecond : d.value 1 = c.value 1) : conditional d = conditional c := by
  unfold conditional
  rw [hfirst, hsecond]
  split
  · rfl
  · rfl
  · rfl
  · rename_i v hproper htrue hv
    rcases h v hv with rfl | herror
    · exact absurd rfl htrue
    · cases v <;> first | exact absurd rfl (hproper _) | cases herror

theorem fallback_congr_of_ne_error (h : ∀ x, c.value 0 ≠ .ok (.error x)) (hfirst : d.value 0 = c.value 0) :
    fallback d = fallback c := by
  unfold fallback
  rw [hfirst]
  split
  · rfl
  · exact absurd ‹_› (h _)
  · rfl

end Builtin

section Branches
variable {s : Setting} {depth : Nat} {name : String}

/-- A condition is a truth value, an error or a fault. -/
theorem Setting.single_logical {e : Expr} {v : Value} (h : s.single .logical depth e = .ok v) :
    v.isBoolean = true ∨ v.isError = true := by
  unfold single at h
  cases ha : e.evaluateAt s depth with
  | error fault =>
    rw [ha] at h
    cases h
  | ok a =>
    rw [ha] at h
    cases hcoerce : ParameterKind.logical.coerce a with
    | value w =>
      simp only [Except.map, hcoerce, Argument.toValue, Except.ok.injEq] at h
      exact h ▸ ParameterKind.admits_of_coerce hcoerce
    | block b => cases (ParameterKind.coerce_eq_block hcoerce).1

theorem Setting.Means.conditional (h : s.Means name "IF") : ∃ f, s.library.find? name = some f ∧
    f.body = .lazy Builtin.conditional ∧ f.parameterAt 0 = .logical := by
  obtain ⟨other, hfind⟩ := h.find?
    (f := (Callable.lazy "IF" 2 (some 3) Builtin.conditional).withParameters [.logical, .any])
    (by simp [Builtin.all, Builtin.logical])
  exact ⟨_, hfind, rfl, rfl⟩

theorem Setting.Means.fallback (h : s.Means name "IFERROR") : ∃ f, s.library.find? name = some f ∧
    f.body = .lazy Builtin.fallback ∧ f.parameterAt 0 = .any := by
  obtain ⟨other, hfind⟩ := h.find?
    (f := ((Callable.lazy "IFERROR" 2 (some 2) Builtin.fallback).withParameters [.any]).absorbing)
    (by simp [Builtin.all, Builtin.logical])
  exact ⟨_, hfind, rfl, rfl⟩

namespace Expr

theorem evaluateAt_conditional_of_ne_true (h : s.Means name "IF") {condition : Expr}
    (hcondition : s.single .logical (depth + 1) condition ≠ .ok (.boolean true)) (x y : Expr) (others : List Expr) :
    evaluateAt s depth (.call name (condition :: x :: others)) =
      evaluateAt s depth (.call name (condition :: y :: others)) := by
  obtain ⟨f, hfind, hbody, hparameter⟩ := h.conditional
  have hfirst (z : Expr) : (s.lazyCall f (depth + 1) (condition :: z :: others)).value 0 =
      s.single .logical (depth + 1) condition := hparameter ▸ Setting.value_lazyCall rfl
  refine evaluateAt_lazy_congr hfind hbody rfl (Builtin.conditional_congr_of_ne_true ?_ rfl ?_ rfl)
  · rwa [hfirst]
  · rw [hfirst, hfirst]

theorem evaluateAt_conditional_of_ne_false (h : s.Means name "IF") {condition : Expr}
    (hcondition : s.single .logical (depth + 1) condition ≠ .ok (.boolean false)) (e x y : Expr) :
    evaluateAt s depth (.call name [condition, e, x]) = evaluateAt s depth (.call name [condition, e, y]) := by
  obtain ⟨f, hfind, hbody, hparameter⟩ := h.conditional
  have hfirst (z : Expr) : (s.lazyCall f (depth + 1) [condition, e, z]).value 0 =
      s.single .logical (depth + 1) condition := hparameter ▸ Setting.value_lazyCall rfl
  refine evaluateAt_lazy_congr hfind hbody rfl (Builtin.conditional_congr_of_not_false (fun v hv => ?_) ?_ rfl)
  · rw [hfirst] at hv
    refine (Setting.single_logical hv).imp_left fun hboolean => ?_
    cases v with
    | boolean b =>
      cases b with
      | true => rfl
      | false => exact absurd hv hcondition
    | _ => cases hboolean
  · rw [hfirst, hfirst]

theorem evaluateAt_fallback_of_ne_error (h : s.Means name "IFERROR") {e : Expr}
    (he : ∀ x, s.single .any (depth + 1) e ≠ .ok (.error x)) (x y : Expr) :
    evaluateAt s depth (.call name [e, x]) = evaluateAt s depth (.call name [e, y]) := by
  obtain ⟨f, hfind, hbody, hparameter⟩ := h.fallback
  have hfirst (z : Expr) : (s.lazyCall f (depth + 1) [e, z]).value 0 = s.single .any (depth + 1) e :=
    hparameter ▸ Setting.value_lazyCall rfl
  refine evaluateAt_lazy_congr hfind hbody rfl (Builtin.fallback_congr_of_ne_error (fun err => ?_) ?_)
  · rw [hfirst]
    exact he err
  · rw [hfirst, hfirst]

/-- `AND` and `OR` are the verdict on the values of their arguments, and the arguments after the one that settles it do
    not matter. Neither does the branch that `IF` does not take, nor what `IFERROR` would fall back on. -/
theorem evaluate_shortCircuit (s : Setting) (depth : Nat) :
    (∀ (decisive : Bool) (name : String), s.Means name (Builtin.junction decisive) →
        (∀ args, args ≠ [] → depth ≤ s.limits.maxDepth → evaluateAt s depth (.call name args) =
          (Builtin.verdict decisive false (s.stream .anyOrBlock (depth + 1) args)).map Argument.value) ∧
        ∀ before e, s.Settles decisive (depth + 1) (before ++ [e]) →
          ∀ after others, evaluateAt s depth (.call name (before ++ e :: after)) =
            evaluateAt s depth (.call name (before ++ e :: others))) ∧
      (∀ name condition, s.Means name "IF" →
        (s.single .logical (depth + 1) condition ≠ .ok (.boolean true) → ∀ x y others,
          evaluateAt s depth (.call name (condition :: x :: others)) =
            evaluateAt s depth (.call name (condition :: y :: others))) ∧
        (s.single .logical (depth + 1) condition ≠ .ok (.boolean false) → ∀ e x y,
          evaluateAt s depth (.call name [condition, e, x]) = evaluateAt s depth (.call name [condition, e, y]))) ∧
      ∀ name e, s.Means name "IFERROR" → (∀ x, s.single .any (depth + 1) e ≠ .ok (.error x)) → ∀ x y,
        evaluateAt s depth (.call name [e, x]) = evaluateAt s depth (.call name [e, y]) := by
  refine ⟨fun decisive name h => ⟨fun args hargs hdepth => evaluateAt_junction h hdepth hargs,
    fun before e hsettles => evaluateAt_junction_of_settles h hsettles⟩, fun name condition h => ⟨?_, ?_⟩,
    fun name e h => evaluateAt_fallback_of_ne_error h⟩
  · exact evaluateAt_conditional_of_ne_true h
  · exact evaluateAt_conditional_of_ne_false h

/-- In `A1:B2` there are a text, an empty cell and `FALSE`, at which `AND` stops, before an error. -/
theorem evaluate_shortCircuit_block :
    let source (l : Location) : Value :=
      if l = ⟨0, 0, 0⟩ then .text "x" else if l = ⟨0, 1, 0⟩ then .boolean false else
        if l = ⟨0, 1, 1⟩ then .error .div0 else .empty
    let s : Setting := ⟨.builtin, source, .atCell ⟨["Sheet1"]⟩ ⟨0, 5, 5⟩, .standard⟩
    let block : Expr := .reference (.range none ⟨.relative 0 0, .relative 1 1⟩)
    let x : Expr := .call "UNKNOWN" []
    evaluateAt s 0 (.call "AND" [.number 1, block, x]) = .ok (.value (.boolean false)) ∧
      evaluateAt s 0 (.call "AND" [.number 1, block, x]) = evaluateAt s 0 (.call "AND" [.number 1, block]) ∧
      evaluateAt s 0 (.call "IF" [block, x, x]) = evaluateAt s 0 (.call "IF" [block, .number 1, x]) ∧
      evaluateAt s 0 (.call "IF" [.boolean true, block, x]) =
        evaluateAt s 0 (.call "IF" [.boolean true, block, .number 1]) ∧
      evaluateAt s 0 (.call "IFERROR" [.number 1, x]) = evaluateAt s 0 (.call "IFERROR" [.number 1, .number 2]) := by
  intro source s block x
  have hmeans {name : String} (hname : name ∈ Builtin.all.map Callable.name) : s.Means name name :=
    s.means_builtin rfl hname
  have hverdict : Builtin.verdict false false (s.stream .anyOrBlock 1 [.number 1, block, x]) =
      .ok (.boolean false) := by cbv
  have hsettles : s.Settles false 1 [.number 1, block] := List.findSome?_isSome_iff.mp (by cbv)
  have hblock : s.single .logical 1 block = .ok (.error .value) := by cbv
  have htrue : s.single .logical 1 (.boolean true) = .ok (.boolean true) := by
    rw [Setting.single, evaluateAt, if_neg (by decide)]
    rfl
  have hone : s.single .any 1 (.number 1) = .ok (.number 1) := by
    rw [Setting.single, evaluateAt, if_neg (by decide)]
    rfl
  obtain ⟨hjunction, hconditional, hfallback⟩ := evaluate_shortCircuit s 0
  refine ⟨?_, (hjunction false "AND" (hmeans (by decide))).2 [.number 1] block hsettles [x] [],
    (hconditional "IF" block (hmeans (by decide))).1 (by simp [hblock]) x (.number 1) [x],
    (hconditional "IF" (.boolean true) (hmeans (by decide))).2 (by simp [htrue]) block x (.number 1),
    hfallback "IFERROR" (.number 1) (hmeans (by decide)) (fun _ => by simp [hone]) x (.number 2)⟩
  rw [(hjunction false "AND" (hmeans (by decide))).1 _ (by simp) (Nat.zero_le _), hverdict]
  rfl

end Expr

end Branches

end Spreadsheet
