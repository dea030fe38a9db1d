import Spreadsheet.Proofs.Engine.Frame
import Spreadsheet.Proofs.Evaluation.Faults

/-! # Passes without faults

Where all functions are built-in ones, under whatever names, every formula has a value. So no pass counts a
fault, and a command leaves it so unless it registers another function. -/

namespace Spreadsheet

namespace Pass
variable {rules : Rules} {b : Before} {p : Pass} {l : Location}

theorem faults_evaluate (h : rules.library.IsBuiltin) : (p.evaluate rules l).faults = p.faults := by
  unfold evaluate
  cases hr : rules.compute p.store l with
  | none => rfl
  | some r =>
    obtain ⟨expr, -, hexpr⟩ := Option.map_eq_some_iff.mp hr
    obtain ⟨v, hv⟩ := expr.exists_evaluate_eq_ok (s := rules.setting p.store l) fun name f hf => (h name f hf).answers
    obtain rfl := hexpr.symm.trans hv
    rfl

theorem faults_foldl_mark {cells : List Location} : (cells.foldl (visit b mark) p).faults = p.faults :=
  List.foldlRecOn (motive := fun q : Pass => q.faults = p.faults) cells (visit b mark) rfl fun _ hq _ _ => hq

theorem faults_run (h : rules.library.IsBuiltin) (store : Store) (plan : Plan) : (run rules b store plan).faults = 0 := by
  refine List.foldlRecOn (motive := fun p : Pass => p.faults = 0) plan.steps (take rules b) rfl fun p hp step _ => ?_
  cases step with
  | cell l => exact (faults_evaluate h).trans hp
  | cycle cells => exact faults_foldl_mark.trans hp

end Pass

namespace Engine
variable {e : Engine} {c : Command}

/-- All functions are built-in ones, and the latest pass counted no fault. -/
structure Faultless (e : Engine) : Prop where
  library : e.library.IsBuiltin
  lastPass : e.lastPass.faults = 0

theorem faults_recalculateFrom (h : e.library.IsBuiltin) {before : Before} {seeds : List Location} :
    (e.recalculateFrom before seeds).1.lastPass.faults = 0 := by
  rw [lastPass_recalculateFrom]
  exact Pass.faults_run h e.store _

theorem faults_recalculateIfAny (h : e.Faultless) {seeds : List Location} :
    (e.recalculateIfAny seeds).1.lastPass.faults = 0 := by
  unfold recalculateIfAny
  split
  · exact h.lastPass
  · exact faults_recalculateFrom h.library

theorem faults_apply (h : e.library.IsBuiltin) {edits : List (Location × Edit)} :
    (e.apply edits).1.lastPass.faults = 0 := by
  have hrules : (e.writeAll edits).1.rules = e.rules := rules_recalculateFrom.symm.trans rules_apply
  have hlibrary : (e.writeAll edits).1.library = e.library := congrArg Rules.library hrules
  exact faults_recalculateFrom (e := (e.writeAll edits).1) (hlibrary ▸ h)

theorem lastPass_relinked {sheets : Sheets} {cells : List Location} :
    (e.relinked sheets cells).lastPass = e.lastPass := by
  refine List.foldlRecOn (motive := fun f : Engine => f.lastPass = e.lastPass) cells _ rfl fun f hf l _ => ?_
  unfold relink
  split <;> exact hf

theorem Faultless.relinked (h : e.Faultless) {sheets : Sheets} {cells : List Location} :
    (e.relinked sheets cells).Faultless where
  library := by
    have hlibrary : (e.relinked sheets cells).library = e.library := congrArg Rules.library rules_relinked
    exact hlibrary ▸ h.library
  lastPass := (congrArg PassReport.faults lastPass_relinked).trans h.lastPass

theorem isBuiltin_after (h : e.library.IsBuiltin) (hc : ∀ f, c = .register f → f.IsBuiltin) :
    (e.after c).library.IsBuiltin := by
  have hlibrary : (e.after c).library = (rulesAfter e.rules c).library := congrArg Rules.library (rules_after e c)
  rw [hlibrary]
  cases c with
  | register f => exact h.register (hc f rfl)
  | _ => exact h

/-- A command keeps an engine faultless, unless it registers a function that is no built-in one. -/
theorem Faultless.after (h : e.Faultless) (hc : ∀ f, c = .register f → f.IsBuiltin) : (e.after c).Faultless where
  library := isBuiltin_after h.library hc
  lastPass := by
    cases hperform : e.perform c with
    | error refusal =>
      rw [after_refused hperform]
      exact h.lastPass
    | ok result =>
      rw [after_ok hperform]
      cases outcome hperform with
      | input r => exact faults_apply h.library
      | batch requests => exact faults_apply h.library
      | addSheet hadd => exact faults_recalculateIfAny h.relinked
      | register f =>
        have hextended : Faultless { e with library := e.library.register f } :=
          ⟨h.library.register (hc f rfl), h.lastPass⟩
        exact faults_recalculateIfAny hextended
      | recalculate cells => exact faults_recalculateFrom h.library
      | recalculateAll => exact faults_recalculateFrom h.library
      | listen => exact h.lastPass

theorem Started.faultless (h : e.Started) : e.Faultless := by
  obtain ⟨limits, sheets, -, rfl⟩ := h.exists_onSheets
  exact ⟨Library.isBuiltin_builtin, rfl⟩

/-- The built-in functions, under whatever names, answer every call with as many arguments as they take. They look at
    none but those of the call, except that `ROUND` with one argument also looks at the second place. With no other
    functions in the library every expression has a value, on any sheets, in any cell and within any limits. So after
    commands that register no others, the latest pass counted no fault. -/
theorem faults_afterAll (h : e.Started) {commands : List Command}
    (hregister : ∀ f, .register f ∈ commands → f.IsBuiltin) :
    (∀ f : Callable, f.IsBuiltin → f.Answers) ∧
      (∀ f ∈ Builtin.all, f.body.Follows (Builtin.inquiry f.name) ∧ ∀ count, f.AcceptsCount count →
        ∀ argument, ∀ place ∈ (Builtin.inquiry f.name count).places argument,
          place < count ∨ f.name = "ROUND" ∧ count = 1 ∧ place = 1) ∧
        (∀ s : Setting, s.library.IsBuiltin → ∀ expr : Expr, ∃ v, expr.evaluate s = .ok v) ∧
          (e.afterAll commands).lastPass.faults = 0 := by
  refine ⟨fun f hf => hf.answers, fun f hf => ⟨Builtin.follows_inquiry hf, fun count hcount argument => ?_⟩,
    fun s hs expr => expr.exists_evaluate_eq_ok fun name f hf => (hs name f hf).answers, ?_⟩
  · exact (Builtin.asks_inquiry hf hcount).places
  · have hfaultless : (e.afterAll commands).Faultless :=
      afterAll_induction commands h.faultless fun f hf c hc => hf.after fun g hg => hregister g (hg ▸ hc)
    exact hfaultless.lastPass

/-- `IF` under another name, called with two arguments and with a block where a truth value should be; and `LEFT`
    without a number of characters. -/
theorem faults_afterAll_renamed :
    let choice := ((Callable.lazy "IF" 2 (some 3) Builtin.conditional).withParameters [.logical, .any]).renamed "CHOOSE"
    (choice.Answers ∧ ∀ argument, ∀ place ∈ (Builtin.inquiry "LEFT" 1).places argument, place < 1) ∧
      (initial.afterAll [.register choice, .input ⟨.address "A1", .text "=CHOOSE(B1,1/0)"⟩,
        .input ⟨.address "A2", .text "=CHOOSE(B1:C2,IF(TRUE,1),ROUND(2.5))"⟩]).lastPass.faults = 0 := by
  intro choice
  have hchoice : choice.IsBuiltin := ⟨_, by simp [Builtin.all, Builtin.logical], "CHOOSE", rfl⟩
  obtain ⟨hanswers, hinquiry, -, hfaults⟩ := @faults_afterAll initial (Or.inl rfl)
    [.register choice, .input ⟨.address "A1", .text "=CHOOSE(B1,1/0)"⟩,
      .input ⟨.address "A2", .text "=CHOOSE(B1:C2,IF(TRUE,1),ROUND(2.5))"⟩] fun f hf => by
    simp only [List.mem_cons, List.not_mem_nil, or_false, Command.register.injEq, reduceCtorEq] at hf
    exact hf ▸ hchoice
  refine ⟨⟨hanswers choice hchoice, fun argument place hplace => ?_⟩, hfaults⟩
  have hleft : (Callable.eager "LEFT" 1 (some 2) Builtin.leftPart).withParameters [.text, .number] ∈ Builtin.all := by
    simp [Builtin.all, Builtin.textual]
  rcases (hinquiry _ hleft).2 1 (by decide) argument place hplace with hlt | ⟨hname, -⟩
  · exact hlt
  · exact absurd hname (by decide)

end Engine

end Spreadsheet
