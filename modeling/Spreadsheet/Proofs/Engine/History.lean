import Spreadsheet.Proofs.Engine.Consistency

/-! # The past does not count

What an engine shows is a function of the limits, the sheets, the functions and the content of each cell
(`Consistent.agree`): the contents say what each cell reads, and along what they read, outside of cycles,
the formulas have one value only. So it does not matter by which commands the content came about. -/

namespace Spreadsheet

/-- The formula of a content, if it is one. -/
def Content.expr? : Content → Option Expr
  | .formula text => (Expr.parse text).toOption
  | _ => none

/-- The value of a content without a formula. -/
def Content.ownValue : Content → Value
  | .formula text =>
    match Expr.parse text with
    | .ok _ => .empty
    | .error error => .error error.errorValue
  | constant => constant.constantValue

namespace Cell.Sound
variable {c : Cell}

theorem expr?_eq (h : c.Sound) : c.expr? = c.content.expr? := by
  cases hcontent : c.content with
  | formula text =>
    rw [Content.expr?]
    cases hparse : Expr.parse text with
    | ok expr =>
      obtain ⟨missing, v, rfl⟩ := h.eq_formula hcontent hparse
      rfl
    | error error =>
      obtain rfl := h.eq_invalid hcontent hparse
      rfl
  | _ =>
    rw [h.eq_constant (by rw [hcontent]; rfl)]
    rfl

theorem value_eq (h : c.Sound) (hexpr : c.expr? = none) : c.value = c.content.ownValue := by
  cases hcontent : c.content with
  | formula text =>
    rw [Content.ownValue]
    cases hparse : Expr.parse text with
    | ok expr =>
      obtain ⟨missing, v, rfl⟩ := h.eq_formula hcontent hparse
      cases hexpr
    | error error =>
      obtain rfl := h.eq_invalid hcontent hparse
      rfl
  | _ =>
    rw [h.eq_constant (by rw [hcontent]; rfl), hcontent]
    rfl

end Cell.Sound

namespace Engine
variable {e f : Engine} {l : Location}

theorem Stored.expr?_eq (h : e.Stored) (l : Location) : e.store.expr? l = (e.store.content l).expr? := by
  rw [Store.expr?, Store.content]
  cases hc : e.store.get? l with
  | none => rfl
  | some c => exact (h.sound l c hc).expr?_eq

theorem Stored.value_eq (h : e.Stored) (hexpr : e.store.expr? l = none) :
    e.store.value l = (e.store.content l).ownValue := by
  rw [Store.expr?] at hexpr
  rw [Store.value, Store.content]
  cases hc : e.store.get? l with
  | none => rfl
  | some c =>
    rw [hc] at hexpr
    exact (h.sound l c hc).value_eq hexpr

/-! ### One valuation -/

/-- The engines are to be told apart by nothing that a value depends on in the end. -/
structure SameInputs (e f : Engine) : Prop where
  limits : e.limits = f.limits
  sheets : e.sheets = f.sheets
  library : ∀ name, e.library.find? name = f.library.find? name
  content : ∀ l, e.store.content l = f.store.content l

/-- The engines show the same values and dependencies. -/
structure Agree (e f : Engine) : Prop where
  value : ∀ l, e.value l = f.value l
  precedents : ∀ l, e.precedents l = f.precedents l
  dependents : ∀ l, e.dependents l = f.dependents l

theorem SameInputs.expr? (h : e.SameInputs f) (he : e.Stored) (hf : f.Stored) (l : Location) :
    f.store.expr? l = e.store.expr? l := by
  rw [hf.expr?_eq, he.expr?_eq, h.content]

theorem SameInputs.precedents (h : e.SameInputs f) (he : e.Linked) (hf : f.Linked) (l : Location) :
    e.dependencies.precedents l = f.dependencies.precedents l := by
  rw [he.mirrors l, hf.mirrors l, Store.precedents, Store.precedents, h.expr? he.toStored hf.toStored, h.sheets]

theorem Consistent.agree (he : e.Consistent) (hf : f.Consistent) (h : e.SameInputs f) : e.Agree f := by
  have hexpr := h.expr? he.toStored hf.toStored
  have hprecedents := h.precedents he.toLinked hf.toLinked
  have hreads : e.dependencies.Reads = f.dependencies.Reads := by
    funext x y
    rw [Dependencies.Reads, Dependencies.Reads, hprecedents]
  have hcycle : ∀ l, e.dependencies.OnCycle l ↔ f.dependencies.OnCycle l := fun l => by
    rw [Dependencies.OnCycle, Dependencies.OnCycle, hreads]
  have hcircular : ∀ l, e.dependencies.OnCycle l → f.store.value l = e.store.value l := fun l hl => by
    rw [(hf.current l).circular ((hcycle l).mp hl), (he.current l).circular hl]
  have halike : ∀ l expr, e.rules.Alike f.rules l expr := fun l expr =>
    ⟨h.limits, fun _ _ => ⟨rfl, rfl, fun _ _ => congrArg (Sheets.indexOf? · _) h.sheets⟩, fun name _ => h.library name⟩
  -- A formula that is on no cycle has its value from those that it reads.
  have hacyclic : ∀ l, ¬e.dependencies.OnCycle l → f.store.value l = e.store.value l := by
    intro l hl
    refine Dependencies.acyclic_induction (motive := fun l => f.store.value l = e.store.value l)
      (fun l hl ih => ?_) hl
    have hcompute : f.rules.compute f.store l = e.rules.compute e.store l := by
      refine Rules.compute_congr he.mirrors (hexpr l) (fun expr _ => halike l expr) fun m hm => ?_
      by_cases hc : e.dependencies.OnCycle m
      · exact hcircular m hc
      · exact ih m hm hc
    cases hr : e.rules.compute e.store l with
    | none =>
      have hnone : e.store.expr? l = none := Option.map_eq_none_iff.mp hr
      rw [he.value_eq hnone, hf.value_eq ((hexpr l).trans hnone), h.content]
    | some r =>
      rw [(he.current l).evaluated hl r hr,
        (hf.current l).evaluated (fun hc => hl ((hcycle l).mpr hc)) r (hcompute.trans hr)]
  constructor
  case value =>
    intro l
    by_cases hl : e.dependencies.OnCycle l
    · exact (hcircular l hl).symm
    · exact (hacyclic l hl).symm
  case precedents => exact hprecedents
  case dependents =>
    intro l
    refine Dependencies.eq_of_pairwise_lt (e.dependencies.pairwise_dependents l)
      (f.dependencies.pairwise_dependents l) fun m => ?_
    rw [dependents, dependents, he.coherent.mem_dependents, hf.coherent.mem_dependents, hreads]

/-! ### What was entered last -/

/-- The inputs made by commands in turn. -/
def history (e : Engine) : List Command → List (Location × Edit)
  | [] => []
  | c :: commands => e.edits c ++ (e.after c).history commands

theorem Linked.content_after (he : e.Linked) (c : Command) (l : Location) :
    (e.after c).store.content l = lastContent l (e.edits c) (e.store.content l) := by
  obtain ⟨f, seeds, -, hprepares, hpass⟩ := he.after c
  rw [← hprepares.content, hpass.revalued.content]

/-- A cell holds what was entered into it last. -/
theorem Linked.content_afterAll {commands : List Command} : ∀ {e : Engine}, e.Linked → ∀ l,
    (e.afterAll commands).store.content l = lastContent l (e.history commands) (e.store.content l) := by
  induction commands with
  | nil => exact fun _ _ => rfl
  | cons c commands ih =>
    intro e he l
    rw [history, lastContent_append, ← he.content_after]
    exact ih (he.step c) l

/-! ### Sheets and functions -/

/-- The rules after a command. -/
def rulesAfter (rules : Rules) : Command → Rules
  | .addSheet name => { rules with sheets := (rules.sheets.add name).toOption.getD rules.sheets }
  | .register f => { rules with library := rules.library.register f }
  | _ => rules

theorem rules_recalculateFrom {before : Before} {seeds : List Location} :
    (e.recalculateFrom before seeds).1.rules = e.rules := by
  obtain ⟨_, _, heq⟩ := e.recalculateFrom_eq before seeds
  rw [heq]
  rfl

theorem rules_apply {edits : List (Location × Edit)} : (e.apply edits).1.rules = e.rules := by
  refine (rules_recalculateFrom (e := (e.writeAll edits).1)).trans ?_
  rw [writeAll_fst]
  refine List.foldlRecOn (motive := fun f : Engine => f.rules = e.rules) edits _ rfl ?_
  intro f hf edit _
  obtain ⟨c, hreplaces, -⟩ := f.exists_replaces_write (l := edit.1) edit.2
  exact hreplaces.rules.trans hf

theorem rules_relinked {sheets : Sheets} {cells : List Location} :
    (e.relinked sheets cells).rules = { e.rules with sheets } := by
  refine List.foldlRecOn (motive := fun f : Engine => f.rules = { e.rules with sheets }) cells _ rfl fun f hf l _ => ?_
  unfold relink
  split
  · exact hf
  · exact hf

theorem rules_recalculateIfAny {seeds : List Location} : (e.recalculateIfAny seeds).1.rules = e.rules := by
  unfold recalculateIfAny
  split
  · rfl
  · exact rules_recalculateFrom

theorem rules_after (e : Engine) (c : Command) : (e.after c).rules = rulesAfter e.rules c := by
  have hsheets : e.rules.sheets = e.sheets := rfl
  cases hperform : e.perform c with
  | error refusal =>
    rw [after_refused hperform]
    cases c with
    | addSheet name =>
      rw [rulesAfter, hsheets]
      cases hadd : e.sheets.add name with
      | error refusal => rfl
      | ok sheets =>
        rw [perform, addSheet, hadd] at hperform
        cases hperform
    | register f => cases hperform
    | _ => rfl
  | ok result =>
    rw [after_ok hperform]
    cases outcome hperform with
    | input r => exact rules_apply
    | batch requests => exact rules_apply
    | addSheet h =>
      rw [rulesAfter, hsheets, h, rules_recalculateIfAny, rules_relinked]
      rfl
    | register f => exact rules_recalculateIfAny
    | recalculate cells => exact rules_recalculateFrom
    | recalculateAll => exact rules_recalculateFrom
    | listen => rfl

theorem rules_afterAll {commands : List Command} : ∀ {e : Engine},
    (e.afterAll commands).rules = commands.foldl rulesAfter e.rules := by
  induction commands with
  | nil => exact rfl
  | cons c commands ih =>
    intro e
    rw [List.foldl_cons, ← rules_after]
    exact ih

theorem limits_afterAll {commands : List Command} : (e.afterAll commands).limits = e.limits :=
  afterAll_induction (motive := fun f => f.limits = e.limits) commands rfl fun f hf c _ => by
    have hrules := congrArg Rules.limits (rules_after f c)
    refine Eq.trans (hrules.trans ?_) hf
    cases c <;> rfl

theorem sheets_after (e : Engine) (c : Command) :
    (e.after c).sheets = e.sheets ∨ ∃ name, e.sheets.add name = .ok (e.after c).sheets := by
  have h : (e.after c).sheets = (rulesAfter e.rules c).sheets := congrArg Rules.sheets (rules_after e c)
  rw [h]
  cases c with
  | addSheet name =>
    rw [rulesAfter, show e.rules.sheets = e.sheets from rfl]
    cases hadd : e.sheets.add name with
    | error refusal => exact Or.inl rfl
    | ok sheets => exact Or.inr ⟨name, hadd⟩
  | _ => exact Or.inl rfl

/-- A request that is accepted once is accepted later, and means the same cell. -/
theorem accept_after {r : Request} {edit : Location × Edit} (h : e.accept r = .ok edit) (c : Command) :
    (e.after c).accept r = .ok edit := by
  obtain ⟨l, hl, rfl⟩ := Except.map_eq_ok.mp h
  refine Except.map_eq_ok.mpr ⟨l, ?_, rfl⟩
  unfold target at hl ⊢
  rcases e.sheets_after c with hsheets | ⟨name, hadd⟩
  · rw [hsheets]
    exact hl
  · split at hl
    · exact Sheets.locate_add hadd hl
    · obtain ⟨rfl, -⟩ := Sheets.check_eq_ok hl
      exact Sheets.check_add hadd hl

theorem mapM_accept_after {requests : List Request} {edits : List (Location × Edit)}
    (h : requests.mapM e.accept = .ok edits) (c : Command) : requests.mapM (e.after c).accept = .ok edits :=
  Except.mapM_mono (fun _ _ hr => accept_after hr c) h

/-! ### Inputs one by one -/

theorem rules_inputs {requests : List Request} : (e.afterAll (requests.map .input)).rules = e.rules :=
  afterAll_induction (motive := fun f => f.rules = e.rules) _ rfl fun f hf c hmem => by
    obtain ⟨r, -, rfl⟩ := List.mem_map.mp hmem
    exact (rules_after f (.input r)).trans hf

theorem history_inputs {requests : List Request} : ∀ {e : Engine} {edits : List (Location × Edit)},
    requests.mapM e.accept = .ok edits → e.history (requests.map .input) = edits := by
  induction requests with
  | nil =>
    intro e edits h
    cases h
    rfl
  | cons r requests ih =>
    intro e edits h
    rw [List.mapM_cons] at h
    obtain ⟨first, hfirst, h⟩ := Except.bind_eq_ok.mp h
    obtain ⟨rest, hrest, h⟩ := Except.bind_eq_ok.mp h
    cases h
    rw [List.map_cons, history, ih (mapM_accept_after hrest (.input r)), edits, hfirst]
    rfl

theorem SameInputs.of_rules (hrules : e.rules = f.rules) (hcontent : ∀ l, e.store.content l = f.store.content l) :
    e.SameInputs f where
  limits := congrArg Rules.limits hrules
  sheets := congrArg Rules.sheets hrules
  library name := congrArg (fun rules : Rules => rules.library.find? name) hrules
  content := hcontent

theorem Linked.content_inputs (he : e.Linked) {requests : List Request} {edits : List (Location × Edit)}
    (h : requests.mapM e.accept = .ok edits) (l : Location) :
    (e.afterAll (requests.map .input)).store.content l = lastContent l edits (e.store.content l) := by
  rw [he.content_afterAll, history_inputs h]

theorem edits_eq_nil {c : Command} (hc : c.requests = []) : e.edits c = [] := by
  refine List.eq_nil_iff_forall_not_mem.mpr fun edit hmem => ?_
  obtain ⟨r, hr, -⟩ := exists_request hmem
  rw [hc] at hr
  cases hr

/-- Several inputs with one pass come to the same as with a pass after each of them. -/
theorem Consistent.agree_batch (he : e.Consistent) {requests : List Request} {edits : List (Location × Edit)}
    (h : requests.mapM e.accept = .ok edits) :
    (e.after (.batch requests)).Agree (e.afterAll (requests.map .input)) := by
  refine (he.after _).agree (afterAll_induction _ he fun _ hf c _ => hf.after c) (.of_rules ?_ fun l => ?_)
  · exact (rules_after e (.batch requests)).trans rules_inputs.symm
  · rw [he.toLinked.content_after, he.toLinked.content_inputs h, Engine.edits, h]
    rfl

/-- A command without inputs, such as to add a sheet or to register a function, may come before or after them. -/
theorem Consistent.agree_swap (he : e.Consistent) {requests : List Request} {edits : List (Location × Edit)}
    (h : requests.mapM e.accept = .ok edits) {c : Command} (hc : c.requests = []) :
    ((e.after c).afterAll (requests.map .input)).Agree ((e.afterAll (requests.map .input)).after c) := by
  have hinputs : ∀ f : Engine, f.Consistent → (f.afterAll (requests.map .input)).Consistent := fun f hf =>
    afterAll_induction _ hf fun _ hg c _ => hg.after c
  refine (hinputs _ (he.after c)).agree ((hinputs e he).after c) (.of_rules ?_ fun l => ?_)
  · rw [rules_inputs, rules_after, rules_after, rules_inputs]
  · rw [(he.after c).toLinked.content_inputs (mapM_accept_after h c), he.toLinked.content_after,
      (hinputs e he).toLinked.content_after, he.toLinked.content_inputs h, edits_eq_nil hc, edits_eq_nil hc]
    rfl

theorem Started.content_afterAll (h : e.Started) (commands : List Command) (l : Location) :
    (e.afterAll commands).store.content l = lastContent l (e.history commands) .empty := by
  have hstart : e.store.content l = .empty := by
    rw [Store.content, h.get?_eq_none]
    rfl
  rw [h.linked.content_afterAll, hstart]

/-- Commands that lead to the same sheets, functions and last inputs lead to the same values and dependencies.
    In particular, inputs may be made in a batch or one by one, and before or after sheets and functions are
    added. -/
theorem agree_afterAll (he : e.Started) (commands : List Command) :
    (∀ (f : Engine) (others : List Command), f.Started → f.limits = e.limits →
      (f.afterAll others).sheets = (e.afterAll commands).sheets →
      (∀ name, (f.afterAll others).library.find? name = (e.afterAll commands).library.find? name) →
      (∀ l, lastContent l (f.history others) .empty = lastContent l (e.history commands) .empty) →
        (f.afterAll others).Agree (e.afterAll commands)) ∧
      ∀ requests edits, requests.mapM (e.afterAll commands).accept = .ok edits →
        ((e.afterAll commands).after (.batch requests)).Agree ((e.afterAll commands).afterAll (requests.map .input)) ∧
          ∀ c, c.requests = [] → (((e.afterAll commands).after c).afterAll (requests.map .input)).Agree
            (((e.afterAll commands).afterAll (requests.map .input)).after c) := by
  have hconsistent := he.consistent_afterAll commands
  refine ⟨fun f others hf hlimits hsheets hlibrary hcontent => ?_, fun requests edits haccept => ?_⟩
  · refine (hf.consistent_afterAll others).agree hconsistent ⟨?_, hsheets, hlibrary, fun l => ?_⟩
    · rw [limits_afterAll, limits_afterAll, hlimits]
    · rw [hf.content_afterAll, he.content_afterAll, hcontent]
  · exact ⟨hconsistent.agree_batch haccept, fun c hc => hconsistent.agree_swap haccept hc⟩

/-- A sheet is added before or after a formula names it, and two inputs are made in a batch or one by one. -/
theorem agree_afterAll_initial :
    (initial.afterAll [.input ⟨.location ⟨0, 0, 0⟩, .text "=Data!A1"⟩, .addSheet "Data"]).Agree
        (initial.afterAll [.addSheet "Data", .input ⟨.location ⟨0, 0, 0⟩, .text "=Data!A1"⟩]) ∧
      (initial.after (.batch [⟨.location ⟨0, 0, 0⟩, .text "=B1"⟩, ⟨.location ⟨0, 0, 1⟩, .text "2"⟩])).Agree
        (initial.afterAll [.input ⟨.location ⟨0, 0, 0⟩, .text "=B1"⟩, .input ⟨.location ⟨0, 0, 1⟩, .text "2"⟩]) := by
  have haccept : initial.accept ⟨.location ⟨0, 0, 0⟩, .text "=Data!A1"⟩ = .ok (⟨0, 0, 0⟩, .text "=Data!A1") := rfl
  constructor
  · refine (agree_afterAll (Or.inl rfl) _).1 initial _ (Or.inl rfl) rfl ?_ (fun name => ?_) fun l => ?_
    · show (Engine.rules _).sheets = (Engine.rules _).sheets
      rw [rules_afterAll, rules_afterAll]
      rfl
    · show (Engine.rules _).library.find? name = (Engine.rules _).library.find? name
      rw [rules_afterAll, rules_afterAll]
      rfl
    · simp only [history, edits, haccept, accept_after haccept (.addSheet "Data")]
      rfl
  · exact ((agree_afterAll (Or.inl rfl) []).2 _ _ rfl).1

end Engine

end Spreadsheet
