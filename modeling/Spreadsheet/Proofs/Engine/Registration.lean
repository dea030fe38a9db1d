import Mathlib
import Spreadsheet.Proofs.Engine.Frame

/-! # Registering a function

A function concerns the formulas that call its name and those that depend on them. Callers are found by
comparing names without regard to case, and functions are found under folded names; both come to the same
(`Text.sameName_iff`). So the pass after a registration visits every formula that can tell the difference
(`Engine.Registers`). -/

namespace Spreadsheet
open Relation

/-! ### Names -/

/-- Texts that agree character by character, but for the case of ASCII letters. -/
def Text.EqualButCase (a b : String) : Prop :=
  List.Forall₂ (fun c d : Char => c.toLower = d.toLower) a.toList b.toList

/-- Characters are the same in upper case if they are the same in lower case. -/
theorem Text.toUpper_eq_iff {c d : Char} : c.toUpper = d.toUpper ↔ c.toLower = d.toLower := by
  constructor
  · intro h
    have hlower := congrArg Char.toLower h
    rwa [Char.toLower_toUpper_eq_toLower, Char.toLower_toUpper_eq_toLower] at hlower
  · intro h
    have hupper := congrArg Char.toUpper h
    rwa [Char.toUpper_toLower_eq_toUpper, Char.toUpper_toLower_eq_toUpper] at hupper

theorem Text.sameName_iff {a b : String} : SameName a b ↔ EqualButCase a b := by
  have hlists : SameName a b ↔ a.toList.map Char.toUpper = b.toList.map Char.toUpper := String.ofList_inj
  rw [hlists, EqualButCase, ← List.forall₂_eq_eq_eq, List.forall₂_map_left_iff, List.forall₂_map_right_iff]
  simp only [toUpper_eq_iff]

namespace Library
variable {l : Library} {f : Callable} {name : String}

/-- Every function is found under its own name only. -/
def Named (l : Library) : Prop :=
  ∀ name f, l.find? name = some f → Text.SameName f.name name

theorem named_empty : empty.Named := by
  intro name f hf
  simp [find?, empty] at hf

theorem Named.register (h : l.Named) (f : Callable) : (l.register f).Named := by
  intro name g hg
  rw [find?_register] at hg
  split at hg
  · rename_i hsame
    cases hg
    exact hsame
  · exact h name g hg

theorem Named.registerAll (h : l.Named) (fs : List Callable) : (l.registerAll fs).Named :=
  List.foldlRecOn fs Library.register h fun _ hl f _ => hl.register f

/-- The new function is found under its name, in whatever case, and nowhere else. -/
theorem Named.find?_register_eq_some_iff (h : l.Named) :
    (l.register f).find? name = some f ↔ Text.SameName f.name name := by
  refine ⟨h.register f name f, fun hsame => ?_⟩
  rw [find?_register, if_pos hsame]

theorem find?_register_of_not_sameName (h : ¬Text.SameName f.name name) :
    (l.register f).find? name = l.find? name := by
  rw [find?_register, if_neg h]

end Library

/-! ### Expressions -/

namespace Expr
variable {f : Callable} {e : Expr}

theorem isCallOf_call {name called : String} {args : List Expr} :
    isCallOf name (.call called args) = true ↔ Text.SameName called name := decide_eq_true_iff

/-- The selected expressions are those that find the new function. -/
theorem calls_iff_find? {l : Library} (h : l.Named) : e.calls f.name = true ↔
    ∃ name args, .call name args ∈ preorder e ∧ (l.register f).find? name = some f := by
  rw [calls_iff]
  refine exists_congr fun name => exists_congr fun args => and_congr_right fun _ => ?_
  rw [h.find?_register_eq_some_iff]
  exact ⟨.symm, .symm⟩

theorem evaluate_register {s : Setting} (h : e.calls f.name = false) :
    e.evaluate { s with library := s.library.register f } = e.evaluate s := by
  refine evaluate_congr ⟨rfl, rfl, fun _ _ => rfl, fun name args hcall => ?_⟩
  refine Library.find?_register_of_not_sameName fun hsame => ?_
  cases h.symm.trans (calls_iff.mpr ⟨name, args, hcall, hsame.symm⟩)

end Expr

/-! ### Engines -/

namespace Engine
variable {e : Engine} {f : Callable}

theorem named_library_afterAll (h : e.Started) (commands : List Command) : (e.afterAll commands).library.Named := by
  have hstart : e.library.Named := by
    obtain ⟨limits, sheets, -, rfl⟩ := h.exists_onSheets
    exact Library.named_empty.registerAll Builtin.all
  refine afterAll_induction (motive := fun e => e.library.Named) commands hstart fun g hg c _ => ?_
  have hlibrary : (g.after c).library = (rulesAfter g.rules c).library := congrArg Rules.library (rules_after g c)
  rw [hlibrary]
  cases c with
  | register f => exact hg.register f
  | _ => exact hg

/-- The engine `after` registers a function in `before`. The function is called by the callers, the pass visits them
    and all that depends on them, and nothing else can tell the difference. -/
structure Registers (before : Engine) (f : Callable) (after : Engine) : Prop where
  callers : ∀ l, l ∈ before.callers f.name ↔ ∃ expr name args, before.store.expr? l = some expr ∧
    .call name args ∈ expr.preorder ∧ after.library.find? name = some f
  touched : before.callers f.name ≠ [] → ∀ l, l ∈ after.lastPass.touched ↔
    ∃ c ∈ before.callers f.name, ReflTransGen before.dependencies.Reads l c
  value : ∀ l, (∀ c ∈ before.callers f.name, ¬ReflTransGen before.dependencies.Reads l c) →
    after.value l = before.value l
  computed : ∀ l, (∀ c ∈ before.callers f.name, ¬ReflTransGen before.dependencies.Reads l c) →
    after.rules.compute after.store l = before.rules.compute before.store l
  uncalled : ∀ l, l ∉ before.callers f.name → ∀ store : Store, store.expr? l = before.store.expr? l →
    after.rules.compute store l = before.rules.compute store l

theorem Linked.registers (he : e.Linked) (hnamed : e.library.Named) (f : Callable) :
    e.Registers f (e.after (.register f)) := by
  obtain ⟨hlinked, hprepares⟩ := prepares_register he f
  have hafter : e.after (.register f) =
      ({ e with library := e.library.register f }.recalculateIfAny (e.callers f.name)).1 := after_ok rfl
  have hpass := hlinked.recalculateIfAny (e.callers f.name)
  rw [← hafter] at hpass
  have hrules : (e.after (.register f)).rules = { e.rules with library := e.library.register f } := hpass.rules
  have hlibrary : (e.after (.register f)).library = e.library.register f := congrArg Rules.library hrules
  have hunaffected {l : Location} (hl : ∀ c ∈ e.callers f.name, ¬ReflTransGen e.dependencies.Reads l c) :=
    he.unaffected hlinked hprepares hpass (l := l) fun haffected => by
      obtain ⟨c, hc, hreads⟩ := hlinked.coherent.affected_iff_reads.mp haffected
      exact hl c hc hreads
  constructor
  case callers =>
    intro l
    rw [mem_callers, hlibrary]
    simp only [Expr.calls_iff_find? hnamed, exists_and_left]
  case touched =>
    intro hcallers l
    have htouched := (hlinked.passFrom_recalculateFrom .none (e.callers f.name)).touched l
    rw [(hlinked.recalculateFrom .none (e.callers f.name)).dependencies] at htouched
    rwa [hafter, Engine.recalculateIfAny, if_neg fun hempty => hcallers (List.isEmpty_iff.mp hempty)]
  case value => exact fun l hl => (hunaffected hl).1
  case computed =>
    intro l hl
    rw [hrules]
    exact (hunaffected hl).2
  case uncalled =>
    intro l hl store hexpr
    rw [hrules, Rules.compute, Rules.compute]
    cases hs : store.expr? l with
    | none => rfl
    | some expr =>
      have hcalls : expr.calls f.name = false := Bool.not_eq_true _ ▸ fun hcalls =>
        hl (mem_callers.mpr ⟨expr, hexpr ▸ hs, hcalls⟩)
      exact congrArg some (Expr.evaluate_register (s := e.rules.setting store l) hcalls)

/-- Registering a function changes no evaluation but of expressions that call it. A call is to the function exactly if
    its name is the same but for the case of letters, and then the function is found under it; other names find what
    they found. So after any commands the pass goes over every formula that the function can concern. -/
theorem register_afterAll (h : e.Started) (commands : List Command) (f : Callable) :
    (∀ (s : Setting) (expr : Expr), expr.calls f.name = false →
      expr.evaluate { s with library := s.library.register f } = expr.evaluate s) ∧
      (∀ (others : List Callable) (expr : Expr), expr.calls f.name = true ↔ ∃ name args,
        .call name args ∈ expr.preorder ∧ ((Library.empty.registerAll others).register f).find? name = some f) ∧
      (∀ (others : List Callable) (name : String) (args : List Expr),
        (Expr.isCallOf f.name (.call name args) = true ↔ Text.EqualButCase name f.name) ∧
          (Expr.isCallOf f.name (.call name args) = true ↔
            ((Library.empty.registerAll others).register f).find? name = some f) ∧
          (Expr.isCallOf f.name (.call name args) = false →
            ((Library.empty.registerAll others).register f).find? name = (Library.empty.registerAll others).find? name)) ∧
      (e.afterAll commands).Registers f ((e.afterAll commands).after (.register f)) := by
  have hnamed (others : List Callable) : (Library.empty.registerAll others).Named :=
    Library.named_empty.registerAll others
  refine ⟨fun s expr hcalls => Expr.evaluate_register hcalls, fun others expr => Expr.calls_iff_find? (hnamed others),
    fun others name args => ⟨?_, ?_, fun hother => ?_⟩,
    (h.linked_afterAll commands).registers (named_library_afterAll h commands) f⟩
  · rw [Expr.isCallOf_call, Text.sameName_iff]
  · rw [Expr.isCallOf_call, (hnamed others).find?_register_eq_some_iff]
    exact ⟨.symm, .symm⟩
  · refine Library.find?_register_of_not_sameName fun hsame => ?_
    cases hother.symm.trans (Expr.isCallOf_call.mpr hsame.symm)

/-- A function that a formula calls, in other case, before there is one of the name. -/
theorem register_afterAll_initial :
    let today := Callable.eager "Today" 0 (some 0) fun _ _ => .ok (.text "Monday")
    let before := initial.afterAll [.input ⟨.location ⟨0, 0, 0⟩, .text "=IF(FALSE,tODAY())"⟩]
    initial.Started ∧ before.Registers today (before.after (.register today)) ∧
      ⟨0, 0, 0⟩ ∈ (before.after (.register today)).lastPass.touched ∧
      (Library.builtin.register today).find? "tODAY" = some today ∧
      (Expr.call "ABS" [.number 1]).evaluate
          ⟨Library.builtin.register today, fun _ => .empty, .atCell .initial ⟨0, 0, 0⟩, .standard⟩ =
        (Expr.call "ABS" [.number 1]).evaluate ⟨.builtin, fun _ => .empty, .atCell .initial ⟨0, 0, 0⟩, .standard⟩ := by
  intro today before
  have hstarted : initial.Started := Or.inl rfl
  obtain ⟨hevaluate, -, hnames, hregisters⟩ := register_afterAll hstarted
    [.input ⟨.location ⟨0, 0, 0⟩, .text "=IF(FALSE,tODAY())"⟩] today
  have hparse : Expr.parse "=IF(FALSE,tODAY())" = .ok (.call "IF" [.boolean false, .call "tODAY" []]) := by cbv
  have hcontent : before.store.content ⟨0, 0, 0⟩ = .formula "=IF(FALSE,tODAY())" :=
    (hstarted.linked.content_after (.input ⟨.location ⟨0, 0, 0⟩, .text "=IF(FALSE,tODAY())"⟩) ⟨0, 0, 0⟩).trans (by cbv)
  have hcaller : ⟨0, 0, 0⟩ ∈ before.callers "Today" :=
    mem_callers.mpr ⟨_, (hstarted.linked_afterAll _).expr?_eq_some hcontent hparse, by cbv⟩
  exact ⟨hstarted, hregisters, (hregisters.touched (List.ne_nil_of_mem hcaller) _).mpr ⟨_, hcaller, .refl⟩,
    (hnames Builtin.all "tODAY" []).2.1.mp (by decide),
    hevaluate ⟨.builtin, fun _ => .empty, .atCell .initial ⟨0, 0, 0⟩, .standard⟩ (.call "ABS" [.number 1]) (by cbv)⟩

end Engine

end Spreadsheet
