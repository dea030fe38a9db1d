import Spreadsheet.Function.Inquiry

/-! # Which arguments the built-in functions look at

A built-in function does what its inquiry does (`Body.Follows`), and that asks for no places but those of the
arguments of the call. One function makes an exception: `ROUND` with one argument also asks for the second place,
where an empty value stands in. -/

namespace Spreadsheet

variable {args : List Argument} {argument : Nat → Argument} {c : LazyCall} {P : Nat → Prop}

namespace Inquiry
variable {p : Inquiry} {α σ : Type}

/-! ### Places -/

/-- Whatever the arguments are, the places that are asked for have a property. -/
def Asks (P : Nat → Prop) : Inquiry → Prop
  | answer _ => True
  | ask place next => P place ∧ ∀ a, (next a).Asks P

theorem Asks.places (h : p.Asks P) : ∀ place ∈ p.places argument, P place := by
  induction p with
  | answer v => exact fun _ hplace => absurd hplace List.not_mem_nil
  | ask place next ih => exact List.forall_mem_cons.mpr ⟨h.1, ih _ (h.2 _)⟩

theorem Asks.mono {Q : Nat → Prop} (h : p.Asks P) (hsub : ∀ place, P place → Q place) : p.Asks Q := by
  induction p with
  | answer v => trivial
  | ask place next ih => exact ⟨hsub place h.1, fun a => ih a (h.2 a)⟩

theorem asks_view {read : Value → Except ErrorValue α} {place : Nat} {next : α → Inquiry} (hplace : P place)
    (h : ∀ x, (next x).Asks P) : (view read place next).Asks P := by
  refine ⟨hplace, fun a => ?_⟩
  dsimp only
  split
  · trivial
  · exact h _

theorem asks_survey {step : σ → Argument → Except Value σ} {finish : σ → Value} {remaining : Nat} :
    ∀ {s : σ} {place : Nat}, (∀ i < place + remaining, P i) → (survey step finish s place remaining).Asks P := by
  induction remaining with
  | zero => exact fun _ => trivial
  | succ remaining ih =>
    intro s place h
    refine ⟨h place (by omega), fun a => ?_⟩
    dsimp only
    split
    · trivial
    · exact ih fun i hi => h i (by omega)

/-! ### Runs -/

/-- Where the arguments that are asked for can be evaluated, there is a value. -/
theorem exists_run_eq_ok (h : p.Asks P) (hargument : ∀ i, P i → ∃ a, c.argument i = .ok a) : ∃ v, p.run c = .ok v := by
  induction p with
  | answer v => exact ⟨v, rfl⟩
  | ask place next ih =>
    obtain ⟨a, ha⟩ := hargument place h.1
    obtain ⟨v, hv⟩ := ih a (h.2 a)
    exact ⟨v, by rw [run, ha]; exact hv⟩

/-- What is not asked for does not matter. -/
theorem run_congr (h : p.Asks P) {argument : Nat → Except Fault Argument} (heq : ∀ i, P i → argument i = c.argument i) :
    p.run { c with argument } = p.run c := by
  induction p with
  | answer v => rfl
  | ask place next ih =>
    rw [run, run]
    dsimp only
    rw [heq place h.1]
    cases c.argument place with
    | error fault => rfl
    | ok a => exact ih a (h.2 a)

/-! ### Results -/

theorem given_length_append (before : List Argument) (a : Argument) :
    Argument.given (before ++ a :: args) before.length = a := by
  rw [Argument.given, List.getElem?_append_right (Nat.le_refl _), Nat.sub_self]
  rfl

/-- What `survey` makes of arguments that come after others. -/
theorem result_survey {step : σ → Argument → Except Value σ} {finish : σ → Value} :
    ∀ {s : σ} {before : List Argument}, (survey step finish s before.length args.length).result
      (Argument.given (before ++ args)) =
        match args.foldlM step s with
        | .error v => v
        | .ok s => finish s := by
  induction args with
  | nil => exact rfl
  | cons a args ih =>
    intro s before
    rw [List.length_cons, survey, result, given_length_append, List.foldlM_cons]
    cases hs : step s a with
    | error v => rfl
    | ok t =>
      have hrest := @ih t (before ++ [a])
      rw [List.length_append, List.append_assoc] at hrest
      exact hrest

theorem foldlM_gained {contribution : Argument → Except ErrorValue (List α)} :
    ∀ {found : List α}, args.foldlM (gained contribution) found =
      match args.mapM contribution with
      | .error e => .error (.error e)
      | .ok xss => .ok (found ++ xss.flatten) := by
  induction args with
  | nil => exact fun {found} => congrArg Except.ok (List.append_nil found).symm
  | cons a args ih =>
    intro found
    rw [List.foldlM_cons, List.mapM_cons, gained]
    cases contribution a with
    | error e => rfl
    | ok xs =>
      refine ih.trans ?_
      cases args.mapM contribution with
      | error e => rfl
      | ok xss => exact congrArg Except.ok (List.append_assoc found xs xss.flatten)

theorem result_collect {contribution : Argument → Except ErrorValue (List α)} {finish : List α → Value} :
    (collect contribution finish args.length).result (Argument.given args) =
      Value.ofView finish ((args.mapM contribution).map List.flatten) := by
  have hsurvey := @result_survey args (List α) (gained contribution) finish [] []
  rw [foldlM_gained] at hsurvey
  refine hsurvey.trans ?_
  cases args.mapM contribution <;> rfl

end Inquiry

/-! ### The built-in functions -/

/-- A function does with a call what an inquiry for the number of its arguments does. -/
def Body.Follows (body : Body) (inquiry : Nat → Inquiry) : Prop :=
  match body with
  | .eager run => ∀ args site, run args site = .ok ((inquiry args.length).result (Argument.given args))
  | .lazy run => ∀ c, run c = (inquiry c.count).run c

theorem Argument.valueAt_eq (args : List Argument) (place : Nat) : valueAt args place = (given args place).toValue := by
  rw [valueAt, given]
  cases args[place]? <;> rfl

namespace Builtin
open Inquiry

variable {run : List Argument → CallSite → Except Fault Value}

theorem settle_view {α : Type} {read : Value → Except ErrorValue α} {f : α → Except ErrorValue Value} {place : Nat}
    {next : α → Inquiry} (h : ∀ x, settle (f x) = .ok ((next x).result (Argument.given args))) :
    settle (read (Argument.valueAt args place) >>= f) =
      .ok ((view read place next).result (Argument.given args)) := by
  rw [view, result, Argument.valueAt_eq]
  cases read (Argument.given args place).toValue with
  | error e => rfl
  | ok x => exact h x

theorem follows_askNumbers {f : List Number → Value} {finish : List Number → Except ErrorValue Value}
    (h : ∀ args site, run args site = settle (do finish (← Argument.allNumbers args)))
    (hfinish : ∀ ns, finish ns = .ok (f ns)) : (Body.eager run).Follows (askNumbers f) := by
  intro args site
  have hresult : (askNumbers f args.length).result (Argument.given args) = Value.ofView f (Argument.allNumbers args) :=
    result_collect
  rw [h, hresult]
  cases Argument.allNumbers args with
  | error e => rfl
  | ok ns => exact congrArg settle (hfinish ns)

theorem follows_askValues {f : List Value → Value}
    (h : ∀ args site, run args site = .ok (f (args.flatMap Argument.values))) :
    (Body.eager run).Follows (askValues f) := by
  intro args site
  have hvalues : args.mapM (fun a => Except.ok (ε := ErrorValue) a.values) = .ok (args.map Argument.values) :=
    List.mapM_pure
  rw [h, askValues, result_collect, hvalues, List.flatMap]
  rfl

theorem follows_askNumber {f : Number → Value}
    (h : ∀ args site, run args site = settle (do return f (← Argument.numberAt args 0))) :
    (Body.eager run).Follows fun _ => askNumber f := fun args site =>
  (h args site).trans (settle_view fun _ => rfl)

theorem follows_askPair {f : Number → Number → Value}
    (h : ∀ args site, run args site = settle (do return f (← Argument.numberAt args 0) (← Argument.numberAt args 1))) :
    (Body.eager run).Follows fun _ => askPair f := fun args site =>
  (h args site).trans (settle_view fun _ => settle_view fun _ => rfl)

theorem follows_askText {f : String → Value} : (Body.eager (ofText f)).Follows fun _ => askText f := fun _ _ =>
  settle_view fun _ => rfl

theorem follows_askQuestion {p : Value → Bool} : (Body.eager (question p)).Follows fun _ => askQuestion p := by
  intro args site
  rw [question, Argument.valueAt_eq]
  rfl

theorem follows_askPart {f : Nat → List Char → List Char} : (Body.eager (part f)).Follows (askPart f) := by
  refine fun args site => settle_view fun s => ?_
  unfold characterCount
  split
  · rfl
  · rw [bind_assoc]
    refine settle_view fun n => ?_
    split <;> rfl

theorem pollArguments_eq_run {decisive : Bool} {remaining : Nat} :
    ∀ {seen : Bool} {place : Nat}, pollArguments decisive c seen place remaining =
      (survey (fun seen a => poll decisive a.isBlock seen a.values)
        (fun seen => if seen then .boolean !decisive else .error .value) seen place remaining).run c := by
  induction remaining with
  | zero => exact rfl
  | succ remaining ih =>
    intro seen place
    rw [pollArguments, survey, Inquiry.run]
    cases c.argument place with
    | error fault => rfl
    | ok a =>
      dsimp only [bind, Except.bind]
      cases poll decisive a.isBlock seen a.values with
      | error v => rfl
      | ok seen => exact ih

theorem value_eq_run (c : LazyCall) (place : Nat) : c.value place = (ask place fun a => answer a.toValue).run c := by
  rw [LazyCall.value, Inquiry.run]
  cases c.argument place <;> rfl

theorem follows_askConditional : (Body.lazy conditional).Follows askConditional := by
  intro c
  have hcondition : c.value 0 = (c.argument 0).map Argument.toValue := rfl
  rw [conditional, askConditional, Inquiry.run, hcondition, value_eq_run c 1, value_eq_run c 2]
  cases c.argument 0 with
  | error fault => rfl
  | ok a =>
    dsimp only [Except.map, bind, Except.bind]
    cases a.toValue with
    | boolean b => cases b <;> dsimp only <;> split <;> rfl
    | error e => rfl
    | _ => dsimp only; split <;> rfl

theorem follows_askFallback : (Body.lazy fallback).Follows fun _ => askFallback := by
  intro c
  have hfirst : c.value 0 = (c.argument 0).map Argument.toValue := rfl
  dsimp only
  rw [fallback, askFallback, Inquiry.run, hfirst, value_eq_run c 1]
  cases c.argument 0 with
  | error fault => rfl
  | ok a =>
    dsimp only [Except.map, bind, Except.bind]
    cases a.toValue <;> rfl

theorem follows_arithmetic : ∀ f ∈ arithmetic, f.body.Follows (inquiry f.name) := by
  simp only [arithmetic, List.map_cons, List.map_nil, List.cons_append, List.nil_append, List.forall_mem_cons]
  refine ⟨?_, ?_, ?_, ?_, ?_, ?_, ?_, ?_, ?_, ?_, ?_, ?_, ?_, fun _ hnone => absurd hnone List.not_mem_nil⟩
  · exact follows_askNumbers (fun _ _ => rfl) fun _ => rfl
  · exact follows_askNumbers (fun _ _ => rfl) fun ns => by cases ns <;> rfl
  · exact follows_askNumbers (fun _ _ => rfl) fun ns => by cases ns <;> rfl
  · exact follows_askNumbers (fun _ _ => rfl) fun _ => rfl
  · exact follows_askNumbers (fun _ _ => rfl) fun _ => rfl
  · exact follows_askValues fun _ _ => rfl
  · exact follows_askValues fun _ _ => rfl
  · exact follows_askNumber fun _ _ => rfl
  · exact follows_askPair fun _ _ => rfl
  · exact follows_askNumber fun _ _ => rfl
  · exact follows_askPair fun _ _ => rfl
  · exact follows_askNumber fun _ _ => rfl
  · exact follows_askPair fun _ _ => rfl

theorem follows_logical : ∀ f ∈ logical, f.body.Follows (inquiry f.name) := by
  simp only [logical, List.forall_mem_cons]
  refine ⟨?_, ?_, ?_, ?_, ?_, ?_, ?_, fun _ hnone => absurd hnone List.not_mem_nil⟩
  · exact follows_askConditional
  · exact fun _ => pollArguments_eq_run
  · exact fun _ => pollArguments_eq_run
  · exact follows_askFallback
  · exact fun _ _ => settle_view fun _ => rfl
  · exact fun _ _ => rfl
  · exact fun _ _ => rfl

theorem follows_inspection : ∀ f ∈ inspection, f.body.Follows (inquiry f.name) := by
  simp only [inspection, List.map_cons, List.map_nil, List.forall_mem_cons]
  exact ⟨follows_askQuestion, follows_askQuestion, follows_askQuestion, follows_askQuestion, follows_askQuestion,
    fun _ hnone => absurd hnone List.not_mem_nil⟩

theorem follows_textual : ∀ f ∈ textual, f.body.Follows (inquiry f.name) := by
  simp only [textual, List.forall_mem_cons]
  refine ⟨?_, ?_, ?_, ?_, ?_, ?_, ?_, fun _ hnone => absurd hnone List.not_mem_nil⟩
  · exact follows_askValues fun _ _ => rfl
  · exact follows_askText
  · exact follows_askText
  · exact follows_askText
  · exact follows_askText
  · exact follows_askPart
  · exact follows_askPart

/-- A built-in function does what its inquiry does, whatever the arguments are and however many. -/
theorem follows_inquiry {f : Callable} (hf : f ∈ all) : f.body.Follows (inquiry f.name) := by
  simp only [all, List.mem_append] at hf
  rcases hf with ((hf | hf) | hf) | hf
  · exact follows_arithmetic f hf
  · exact follows_logical f hf
  · exact follows_inspection f hf
  · exact follows_textual f hf

/-! ### Accesses -/

theorem asks_askPair {f : Number → Number → Value} (hfirst : P 0) (hsecond : P 1) : (askPair f).Asks P :=
  asks_view hfirst fun _ => asks_view hsecond fun _ => trivial

theorem asks_askQuestion {p : Value → Bool} (hfirst : P 0) : (askQuestion p).Asks P :=
  ⟨hfirst, fun _ => trivial⟩

theorem asks_askPart {f : Nat → List Char → List Char} {count : Nat} (hcount : 1 ≤ count) :
    (askPart f count).Asks (· < count) := by
  refine asks_view hcount fun s => ?_
  split
  · trivial
  · exact asks_view (by omega) fun _ => trivial

theorem asks_askConditional {count : Nat} (hcount : 2 ≤ count) : (askConditional count).Asks (· < count) := by
  refine ⟨by omega, fun a => ?_⟩
  dsimp only
  split
  · trivial
  · exact ⟨hcount, fun _ => trivial⟩
  · split
    · exact ⟨‹_›, fun _ => trivial⟩
    · trivial

theorem asks_askFallback {count : Nat} (hcount : 2 ≤ count) : askFallback.Asks (· < count) := by
  refine ⟨by omega, fun a => ?_⟩
  dsimp only
  split
  · exact ⟨hcount, fun _ => trivial⟩
  · trivial

theorem asks_survey_count {σ : Type} {step : σ → Argument → Except Value σ} {finish : σ → Value} {s : σ} {count : Nat} :
    (survey step finish s 0 count).Asks (· < count) :=
  asks_survey fun _ hi => by omega

theorem asks_arithmetic : ∀ f ∈ arithmetic, ∀ count, f.AcceptsCount count →
    (inquiry f.name count).Asks fun place => place < count ∨ f.name = "ROUND" ∧ count = 1 ∧ place = 1 := by
  simp only [arithmetic, List.map_cons, List.map_nil, List.cons_append, List.nil_append, List.forall_mem_cons]
  refine ⟨?_, ?_, ?_, ?_, ?_, ?_, ?_, ?_, ?_, ?_, ?_, ?_, ?_, fun _ hnone => absurd hnone List.not_mem_nil⟩
  · exact fun _ _ => asks_survey_count.mono fun _ => Or.inl
  · exact fun _ _ => asks_survey_count.mono fun _ => Or.inl
  · exact fun _ _ => asks_survey_count.mono fun _ => Or.inl
  · exact fun _ _ => asks_survey_count.mono fun _ => Or.inl
  · exact fun _ _ => asks_survey_count.mono fun _ => Or.inl
  · exact fun _ _ => asks_survey_count.mono fun _ => Or.inl
  · exact fun _ _ => asks_survey_count.mono fun _ => Or.inl
  · exact fun _ hcount => asks_view (Or.inl hcount.1) fun _ => trivial
  -- `ROUND` takes one number, and asks for two.
  · intro count hcount
    have hone : 1 ≤ count := hcount.1
    refine asks_askPair (Or.inl hone) ?_
    by_cases htwo : 1 < count
    · exact Or.inl htwo
    · exact Or.inr ⟨rfl, by omega, rfl⟩
  · exact fun _ hcount => asks_view (Or.inl hcount.1) fun _ => trivial
  · exact fun _ hcount => asks_askPair (Or.inl (Nat.lt_of_succ_lt hcount.1)) (Or.inl hcount.1)
  · exact fun _ hcount => asks_view (Or.inl hcount.1) fun _ => trivial
  · exact fun _ hcount => asks_askPair (Or.inl (Nat.lt_of_succ_lt hcount.1)) (Or.inl hcount.1)

theorem asks_logical : ∀ f ∈ logical, ∀ count, f.AcceptsCount count → (inquiry f.name count).Asks (· < count) := by
  simp only [logical, List.forall_mem_cons]
  refine ⟨?_, ?_, ?_, ?_, ?_, ?_, ?_, fun _ hnone => absurd hnone List.not_mem_nil⟩
  · exact fun _ hcount => asks_askConditional hcount.1
  · exact fun _ _ => asks_survey_count
  · exact fun _ _ => asks_survey_count
  · exact fun _ hcount => asks_askFallback hcount.1
  · exact fun _ hcount => asks_view hcount.1 fun _ => trivial
  · exact fun _ _ => trivial
  · exact fun _ _ => trivial

theorem asks_inspection : ∀ f ∈ inspection, ∀ count, f.AcceptsCount count →
    (inquiry f.name count).Asks (· < count) := by
  simp only [inspection, List.map_cons, List.map_nil, List.forall_mem_cons]
  refine ⟨?_, ?_, ?_, ?_, ?_, fun _ hnone => absurd hnone List.not_mem_nil⟩
  all_goals exact fun _ hcount => asks_askQuestion hcount.1

theorem asks_textual : ∀ f ∈ textual, ∀ count, f.AcceptsCount count → (inquiry f.name count).Asks (· < count) := by
  simp only [textual, List.forall_mem_cons]
  refine ⟨?_, ?_, ?_, ?_, ?_, ?_, ?_, fun _ hnone => absurd hnone List.not_mem_nil⟩
  · exact fun _ _ => asks_survey_count
  · exact fun _ hcount => asks_view hcount.1 fun _ => trivial
  · exact fun _ hcount => asks_view hcount.1 fun _ => trivial
  · exact fun _ hcount => asks_view hcount.1 fun _ => trivial
  · exact fun _ hcount => asks_view hcount.1 fun _ => trivial
  · exact fun _ hcount => asks_askPart (f := fun n cs => cs.take n) hcount.1
  · exact fun _ hcount => asks_askPart (f := fun n cs => cs.drop (cs.length - n)) hcount.1

/-- With as many arguments as it takes, a built-in function asks only for these, but for `ROUND` with one. -/
theorem asks_inquiry {f : Callable} (hf : f ∈ all) {count : Nat} (hcount : f.AcceptsCount count) :
    (inquiry f.name count).Asks fun place => place < count ∨ f.name = "ROUND" ∧ count = 1 ∧ place = 1 := by
  simp only [all, List.mem_append] at hf
  rcases hf with ((hf | hf) | hf) | hf
  · exact asks_arithmetic f hf count hcount
  · exact (asks_logical f hf count hcount).mono fun _ => Or.inl
  · exact (asks_inspection f hf count hcount).mono fun _ => Or.inl
  · exact (asks_textual f hf count hcount).mono fun _ => Or.inl

/-- `ROUND` of 2.5 alone asks for the second place, which the call does not have. -/
theorem exists_places_round_ge :
    let round := (Callable.eager "ROUND" 1 (some 2) Builtin.round).withParameters [.number]
    let args := [Argument.value (.number ⟨0x4004000000000000⟩)]
    (round ∈ all ∧ round.body.Follows (inquiry "ROUND") ∧ round.AcceptsCount args.length) ∧
      ∃ place ∈ (inquiry "ROUND" args.length).places (Argument.given args), ¬place < args.length := by
  intro round args
  have hmem : round ∈ all := by simp [all, arithmetic, round]
  have hplaces : (inquiry "ROUND" args.length).places (Argument.given args) = [0, 1] := rfl
  refine ⟨⟨hmem, follows_inquiry hmem, by decide⟩, 1, ?_, Nat.lt_irrefl 1⟩
  rw [hplaces]
  decide

end Builtin

end Spreadsheet
