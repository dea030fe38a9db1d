import Spreadsheet.Proofs.Evaluation.Errors
import Spreadsheet.Proofs.Evaluation.Inquiry

/-! # Evaluations without faults

A built-in function answers every call with as many arguments as it takes (`Callable.Answers`), under whatever name.
Where all functions do, every expression has a value: an evaluation ends with a fault only by a function that it
calls. -/

namespace Spreadsheet

/-! ### Functions that answer -/

/-- A function answers every call with as many arguments as it takes. What a lazy one would be told of arguments that
    the call does not have makes no difference. -/
structure Callable.Answers (f : Callable) : Prop where
  eager : ∀ run, f.body = .eager run → ∀ args site, f.AcceptsCount args.length → ∃ v, run args site = .ok v
  lazy : ∀ run, f.body = .lazy run → ∀ c : LazyCall, f.AcceptsCount c.count →
    (∀ i < c.count, ∃ a, c.argument i = .ok a) → ∃ v, run c = .ok v
  asked : ∀ run, f.body = .lazy run → ∀ c : LazyCall, f.AcceptsCount c.count →
    ∀ argument, (∀ i < c.count, argument i = c.argument i) → run { c with argument } = run c

theorem Callable.Answers.renamed {f : Callable} (h : f.Answers) (name : String) : (f.renamed name).Answers :=
  ⟨h.eager, h.lazy, h.asked⟩

namespace Builtin
variable {f : Callable}

theorem asks_inquiry_of_lazy (hf : f ∈ all) {run : LazyCall → Except Fault Value} (hbody : f.body = .lazy run)
    {count : Nat} (hcount : f.AcceptsCount count) : (inquiry f.name count).Asks (· < count) := by
  have hround : ∀ g ∈ all, g.body.isLazy = true → g.name ≠ "ROUND" := by decide
  refine (asks_inquiry hf hcount).mono fun place hplace => ?_
  rcases hplace with hlt | ⟨hname, -⟩
  · exact hlt
  · exact absurd hname (hround f hf (by rw [hbody]; rfl))

theorem answers (hf : f ∈ all) : f.Answers where
  eager run hbody args site _ := by
    have hfollows := follows_inquiry hf
    rw [hbody] at hfollows
    exact ⟨_, hfollows args site⟩
  lazy run hbody c haccepts h := by
    have hfollows := follows_inquiry hf
    rw [hbody] at hfollows
    rw [hfollows c]
    exact Inquiry.exists_run_eq_ok (asks_inquiry_of_lazy hf hbody haccepts) h
  asked run hbody c haccepts argument h := by
    have hfollows := follows_inquiry hf
    rw [hbody] at hfollows
    rw [hfollows c, hfollows { c with argument }]
    exact Inquiry.run_congr (asks_inquiry_of_lazy hf hbody haccepts) h

end Builtin

/-- A function is a built-in one, under its own or another name. -/
def Callable.IsBuiltin (f : Callable) : Prop :=
  ∃ g ∈ Builtin.all, ∃ name, f = g.renamed name

theorem Callable.IsBuiltin.answers {f : Callable} (h : f.IsBuiltin) : f.Answers := by
  obtain ⟨g, hg, name, rfl⟩ := h
  exact (Builtin.answers hg).renamed name

/-- All functions of a library are built-in ones. -/
def Library.IsBuiltin (l : Library) : Prop :=
  ∀ name f, l.find? name = some f → f.IsBuiltin

theorem Library.IsBuiltin.register {l : Library} (h : l.IsBuiltin) {f : Callable} (hf : f.IsBuiltin) :
    (l.register f).IsBuiltin := by
  intro name g hg
  rw [find?_register] at hg
  split at hg
  · cases hg
    exact hf
  · exact h name g hg

theorem Library.isBuiltin_builtin : Library.builtin.IsBuiltin := by
  rw [builtin, registerAll]
  refine List.foldlRecOn (motive := IsBuiltin) Builtin.all register (fun name f hf => ?_) fun l hl f hf =>
    hl.register ⟨f, hf, f.name, rfl⟩
  simp [find?, empty] at hf

/-! ### Expressions -/

namespace Expr
variable {s : Setting}

/-- A call has a value if its function answers and its arguments come to something. -/
theorem exists_call_eq_ok {name : String} {args : List Expr} {depth : Nat} (hdepth : ¬s.limits.maxDepth < depth)
    {f : Callable} (hfind : s.library.find? name = some f) (hf : f.Answers)
    (harguments : ∃ result, evaluateArguments s f (depth + 1) 0 args = .ok result ∧
      ∀ values, result = .ok values → values.length = args.length)
    (hnth : ∀ i < args.length, ∃ a, evaluateNth s (depth + 1) args i = some (.ok a)) :
    ∃ a, evaluateAt s depth (call name args) = .ok a := by
  simp only [evaluateAt, if_neg hdepth, hfind]
  by_cases hcount : f.AcceptsCount args.length
  · simp only [hcount, not_true_eq_false, if_false]
    cases hbody : f.body with
    | eager run =>
      obtain ⟨result, hresult, hlength⟩ := harguments
      rw [hresult]
      cases result with
      | error x => exact ⟨_, rfl⟩
      | ok values =>
        obtain ⟨v, hv⟩ := hf.eager run hbody values ⟨f.name, s.resolver.anchor⟩ (hlength values rfl ▸ hcount)
        dsimp only
        rw [hv, Limits.contain_ok]
        exact ⟨_, rfl⟩
    | lazy run =>
      -- Of the call that the evaluation makes up, only the count and the arguments within it matter.
      have hrun : ∀ c : LazyCall, c.count = args.length → (∀ i < c.count, ∃ a, c.argument i = .ok a) →
          ∃ a, (s.limits.contain f.name (run c)).map (fun v => Argument.value v.normalized) = .ok a := by
        intro c hc hargument
        obtain ⟨v, hv⟩ := hf.lazy run hbody c (hc ▸ hcount) hargument
        rw [hv, Limits.contain_ok]
        exact ⟨_, rfl⟩
      refine hrun _ rfl fun i hi => ?_
      obtain ⟨a, ha⟩ := hnth i hi
      exact ⟨(f.parameterAt i).coerce a, by simp only [ha]⟩
  · simp only [hcount, not_false_eq_true, if_true]
    exact ⟨_, rfl⟩

mutual

theorem exists_evaluateAt_eq_ok (hs : ∀ name f, s.library.find? name = some f → f.Answers) (depth : Nat) (e : Expr) :
    ∃ a, evaluateAt s depth e = .ok a := by
  by_cases hdepth : s.limits.maxDepth < depth
  · exact ⟨.value (.error .error), by cases e <;> simp only [evaluateAt, if_pos hdepth]⟩
  cases e with
  | unary op x =>
    obtain ⟨a, ha⟩ := exists_evaluateAt_eq_ok hs (depth + 1) x
    simp only [evaluateAt, if_neg hdepth, ha]
    exact ⟨_, rfl⟩
  | binary op l r =>
    obtain ⟨a, ha⟩ := exists_evaluateAt_eq_ok hs (depth + 1) l
    obtain ⟨b, hb⟩ := exists_evaluateAt_eq_ok hs (depth + 1) r
    simp only [evaluateAt, if_neg hdepth, ha, hb]
    exact ⟨_, rfl⟩
  | call name args =>
    cases hfind : s.library.find? name with
    | none =>
      simp only [evaluateAt, if_neg hdepth, hfind]
      exact ⟨_, rfl⟩
    | some f =>
      exact exists_call_eq_ok hdepth hfind (hs name f hfind) (exists_evaluateArguments_eq_ok hs f (depth + 1) 0 args)
        (exists_evaluateNth_eq_ok hs (depth + 1) args)
  | _ =>
    simp only [evaluateAt, if_neg hdepth]
    exact ⟨_, rfl⟩

/-- Arguments are evaluated to what they come to, or to the first error among them; the latter leaves fewer than
    were given. -/
theorem exists_evaluateArguments_eq_ok (hs : ∀ name f, s.library.find? name = some f → f.Answers) (f : Callable)
    (depth index : Nat) (es : List Expr) : ∃ result, evaluateArguments s f depth index es = .ok result ∧
      ∀ args, result = .ok args → args.length = es.length := by
  cases es with
  | nil => exact ⟨.ok [], by rw [evaluateArguments], fun args h => by cases h; rfl⟩
  | cons e es =>
    obtain ⟨a, ha⟩ := exists_evaluateAt_eq_ok hs depth e
    obtain ⟨others, hothers, hlength⟩ := exists_evaluateArguments_eq_ok hs f depth (index + 1) es
    simp only [evaluateArguments, ha, hothers]
    split
    · exact ⟨_, rfl, fun _ h => by cases h⟩
    · cases others with
      | error x => exact ⟨_, rfl, fun _ h => by cases h⟩
      | ok values =>
        refine ⟨_, rfl, fun args h => ?_⟩
        cases h
        rw [List.length_cons, List.length_cons, hlength values rfl]

theorem exists_evaluateNth_eq_ok (hs : ∀ name f, s.library.find? name = some f → f.Answers) (depth : Nat)
    (es : List Expr) (index : Nat) (hindex : index < es.length) : ∃ a, evaluateNth s depth es index = some (.ok a) := by
  cases es with
  | nil => cases hindex
  | cons e es =>
    cases index with
    | zero =>
      obtain ⟨a, ha⟩ := exists_evaluateAt_eq_ok hs depth e
      exact ⟨a, by rw [evaluateNth, ha]⟩
    | succ index =>
      rw [evaluateNth]
      exact exists_evaluateNth_eq_ok hs depth es index (Nat.lt_of_succ_lt_succ hindex)

end

theorem exists_evaluate_eq_ok (hs : ∀ name f, s.library.find? name = some f → f.Answers) (e : Expr) :
    ∃ v, e.evaluate s = .ok v := by
  obtain ⟨a, ha⟩ := exists_evaluateAt_eq_ok hs 0 e
  exact ⟨a.toValue, by rw [evaluate, ha, Except.map]⟩

end Expr

end Spreadsheet
