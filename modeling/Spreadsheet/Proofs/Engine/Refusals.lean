import Spreadsheet.Engine.Procedure
import Spreadsheet.Proofs.Engine.Frame

/-! # Refusals leave no trace

A procedure reads all that may be refused before it replaces anything. So an operation that is refused leaves
the engine as it was, with all that a client had queued by then. What is not refused is carried out, as the
command that makes the same inputs. -/

namespace Spreadsheet
open Engine
variable {e : Engine}

/-! ### Procedures and what they come to -/

namespace Procedure

theorem run_require_bind {α β : Type} {x : Except Refusal α} {next : α → Procedure β} : (require x >>= next).run e =
    match x with
    | .ok a => (next a).run e
    | .error refusal => .error refusal e := by
  cases x <;> rfl

theorem run_writeAll (edits : List (Location × Edit)) : ∀ (e : Engine) (before : Before),
    (writeAll before edits).run e =
      .ok (edits.foldl (fun (e, before) (l, edit) => (e.write l edit, before.keep e.store l)) (e, before)).2
        (edits.foldl (fun (e, before) (l, edit) => (e.write l edit, before.keep e.store l)) (e, before)).1 := by
  induction edits with
  | nil => exact fun _ _ => rfl
  | cons edit edits ih => exact fun e before => ih (e.write edit.1 edit.2) (before.keep e.store edit.1)

theorem run_apply {edits : List (Location × Edit)} : (apply edits).run e = .ok (e.apply edits).2 (e.apply edits).1 := by
  rw [apply, EStateM.run_bind, run_writeAll]
  rfl

theorem run_relinks (cells : List Location) : ∀ e : Engine,
    (cells.forM fun l => modify fun e => e.relink l : Procedure PUnit).run e = .ok ⟨⟩ (cells.foldl relink e) := by
  induction cells with
  | nil => exact fun _ => rfl
  | cons l cells ih => exact fun e => ih (e.relink l)

theorem run_addSheet {name : String} : (addSheet name).run e =
    match e.addSheet name with
    | .ok result => .ok e.sheets.size result.1
    | .error refusal => .error refusal e := by
  unfold addSheet Engine.addSheet
  rw [EStateM.run_bind]
  show EStateM.run (require (e.sheets.add name) >>= _) e = _
  rw [run_require_bind]
  cases hadd : e.sheets.add name with
  | error refusal => rfl
  | ok sheets =>
    have hsize : sheets.size - 1 = e.sheets.size := by
      rw [Sheets.size_add hadd]
      rfl
    simp only [Except.map, EStateM.run_bind, EStateM.run_modify, EStateM.run_get, run_relinks]
    cases (e.store.locationsWhere (·.awaits name)).isEmpty with
    | true => exact congrArg (EStateM.Result.ok · _) hsize
    | false => exact congrArg (EStateM.Result.ok · _) hsize

end Procedure

/-! ### Clients -/

/-- What is accepted is an input to a place. -/
theorem Engine.check_of_accept (he : 0 < e.sheets.size) {r : Request} {edit : Location × Edit}
    (h : e.accept r = .ok edit) : e.sheets.check edit.1 = .ok edit.1 := by
  refine check_of_mem_edits he (c := .input r) ?_
  rw [Engine.edits, h]
  exact List.mem_singleton_self edit

namespace Transaction

/-- A client only gets inputs to places into its queue. -/
theorem check_of_mem_collect (he : 0 < e.sheets.size) (t : Transaction) {edits : List (Location × Edit)} :
    ∀ {queued : List (Location × Edit)}, t.collect e queued = .ok edits →
      (∀ edit ∈ queued, e.sheets.check edit.1 = .ok edit.1) → ∀ edit ∈ edits, e.sheets.check edit.1 = .ok edit.1 := by
  induction t with
  | commit =>
    intro queued h hqueued
    cases h
    exact hqueued
  | giveUp why =>
    intro queued h
    cases h
  | queue r next ih =>
    intro queued h hqueued
    rw [collect] at h
    cases hr : e.accept r with
    | error refusal =>
      rw [hr] at h
      exact ih _ h hqueued
    | ok edit =>
      rw [hr] at h
      refine ih _ h (List.forall_mem_append.mpr ⟨hqueued, ?_⟩)
      intro x hx
      obtain rfl := List.mem_singleton.mp hx
      exact check_of_accept he hr
  | count next ih =>
    intro queued h
    exact ih _ h

/-- A client that gives up at the first refusal gets all its inputs in or none. -/
theorem collect_ofRequests {requests : List Request} : ∀ {queued : List (Location × Edit)},
    (ofRequests requests).collect e queued = (requests.mapM e.accept).map (queued ++ ·) := by
  induction requests with
  | nil =>
    intro queued
    show Except.ok queued = .ok (queued ++ [])
    rw [List.append_nil]
  | cons r requests ih =>
    intro queued
    rw [List.mapM_cons, ofRequests, collect]
    cases e.accept r with
    | error refusal => rfl
    | ok edit =>
      show (ofRequests requests).collect e (queued ++ [edit]) = _
      rw [ih]
      cases requests.mapM e.accept with
      | error refusal => rfl
      | ok edits => exact congrArg Except.ok (List.append_assoc ..)

end Transaction

theorem Procedure.run_batch_ofRequests {requests : List Request} : (batch (.ofRequests requests)).run e =
    match e.batch requests with
    | .ok result => .ok result.2 result.1
    | .error refusal => .error refusal e := by
  refine run_require_bind.trans ?_
  rw [Transaction.collect_ofRequests, Engine.batch]
  cases requests.mapM e.accept with
  | error refusal => rfl
  | ok edits => exact run_apply

/-! ### Operations -/

namespace Operation

/-- The inputs that an operation is to make, or why it is to be refused. -/
def inputs (e : Engine) : Operation → Except Refusal (List (Location × Edit))
  | set address text => (e.sheets.locate address).map fun l => [(l, .text text)]
  | enter l edit => (e.sheets.check l).map fun l => [(l, edit)]
  | batch t => t.collect e []

theorem check_of_mem_inputs (he : 0 < e.sheets.size) {op : Operation} {edits : List (Location × Edit)}
    (h : op.inputs e = .ok edits) : ∀ edit ∈ edits, e.sheets.check edit.1 = .ok edit.1 := by
  cases op with
  | set address text =>
    obtain ⟨l, hl, rfl⟩ := Except.map_eq_ok.mp h
    exact List.forall_mem_singleton.mpr (Sheets.check_locate he hl)
  | enter l edit =>
    obtain ⟨m, hm, rfl⟩ := Except.map_eq_ok.mp h
    obtain ⟨rfl, -⟩ := Sheets.check_eq_ok hm
    exact List.forall_mem_singleton.mpr hm
  | batch t => exact t.check_of_mem_collect he h (List.forall_mem_nil _)

/-- An operation makes its inputs or is refused, and whether it is refused is settled before the first input. -/
theorem run_procedure (he : 0 < e.sheets.size) (op : Operation) : op.procedure.run e =
    match op.inputs e with
    | .ok edits => .ok (e.apply edits).2 (e.apply edits).1
    | .error refusal => .error refusal e := by
  have henter (l : Location) (edit : Edit) : (Procedure.enter l edit).run e =
      match e.sheets.check l with
      | .ok l => .ok (e.apply [(l, edit)]).2 (e.apply [(l, edit)]).1
      | .error refusal => .error refusal e := by
    refine Procedure.run_require_bind.trans ?_
    cases e.sheets.check l with
    | error refusal => rfl
    | ok m => exact Procedure.run_apply
  cases op with
  | set address text =>
    refine Procedure.run_require_bind.trans ?_
    rw [inputs]
    cases hl : e.sheets.locate address with
    | error refusal => rfl
    | ok l =>
      refine (henter l (.text text)).trans ?_
      rw [Sheets.check_locate he hl]
      rfl
  | enter l edit =>
    refine (henter l edit).trans ?_
    rw [inputs]
    cases e.sheets.check l <;> rfl
  | batch t =>
    refine Procedure.run_require_bind.trans ?_
    rw [inputs]
    cases t.collect e [] with
    | error refusal => rfl
    | ok edits => exact Procedure.run_apply

end Operation

namespace Engine

/-- Inputs are made in turn, and there is one pass and one notice after them: as by the command that makes them. -/
structure Applies (f : Engine) (edits : List (Location × Edit)) (g : Engine) (changes : Changes) : Prop where
  performed : f.perform (.batch (edits.map fun edit => ⟨.location edit.1, edit.2⟩)) = .ok (g, changes)
  rules : g.rules = f.rules
  content : ∀ l, g.store.content l = lastContent l edits (f.store.content l)
  pass : g.PassFrom (edits.map Prod.fst) changes
  notice : f.Notifies g changes

theorem mapM_accept_locations {edits : List (Location × Edit)} (h : ∀ edit ∈ edits, e.sheets.check edit.1 = .ok edit.1) :
    (edits.map fun edit => (⟨.location edit.1, edit.2⟩ : Request)).mapM e.accept = .ok edits := by
  induction edits with
  | nil => rfl
  | cons edit edits ih =>
    obtain ⟨hedit, hedits⟩ := List.forall_mem_cons.mp h
    have haccept : e.accept ⟨.location edit.1, edit.2⟩ = .ok edit := Except.map_eq_ok.mpr ⟨edit.1, hedit, rfl⟩
    rw [List.map_cons, List.mapM_cons, haccept, ih hedits]
    rfl

theorem Linked.applies (he : e.Linked) {edits : List (Location × Edit)}
    (hplaces : ∀ edit ∈ edits, e.sheets.check edit.1 = .ok edit.1) :
    e.Applies edits (e.apply edits).1 (e.apply edits).2 := by
  have haccept := mapM_accept_locations hplaces
  have hperformed : e.perform (.batch (edits.map fun edit => ⟨.location edit.1, edit.2⟩)) = .ok (e.apply edits) := by
    rw [perform, batch, haccept]
    rfl
  obtain ⟨hlinked, -⟩ := prepares_writeAll he hplaces
  have hpass := hlinked.passFrom_recalculateFrom (e.writeAll edits).2 (Dependencies.sorted (edits.map Prod.fst))
  constructor
  case performed => exact hperformed
  case rules => exact rules_apply
  case content =>
    intro l
    have hcontent := he.content_after (.batch (edits.map fun edit => ⟨.location edit.1, edit.2⟩)) l
    rw [after_ok hperformed, Engine.edits, haccept] at hcontent
    exact hcontent
  case pass => exact hpass.congr fun l => Dependencies.mem_sorted
  case notice => exact notifies hperformed Command.noConfusion

/-! ### Engines that can be reached -/

/-- The engine that a procedure leaves, whether it breaks off or not. -/
def leftBy {α : Type} (e : Engine) (p : Procedure α) : Engine :=
  match p.run e with
  | .ok _ f => f
  | .error _ f => f

/-- An engine that operations and commands lead to from a new one. -/
inductive Reached : Engine → Prop where
  | start {e : Engine} (h : e.Started) : Reached e
  | operation {e : Engine} (h : Reached e) (op : Operation) : Reached (e.leftBy op.procedure)
  | addSheet {e : Engine} (h : Reached e) (name : String) : Reached (e.leftBy (Procedure.addSheet name))
  | command {e : Engine} (h : Reached e) (c : Command) : Reached (e.after c)

theorem leftBy_addSheet {name : String} : e.leftBy (Procedure.addSheet name) = e.after (.addSheet name) := by
  rw [leftBy, Procedure.run_addSheet, after, perform]
  cases e.addSheet name <;> rfl

theorem Linked.exists_leftBy_operation (he : e.Linked) (op : Operation) :
    ∃ commands, e.leftBy op.procedure = e.afterAll commands := by
  have hrun := op.run_procedure he.inhabited
  cases hinputs : op.inputs e with
  | error refusal =>
    refine ⟨[], ?_⟩
    rw [leftBy, hrun, hinputs]
    rfl
  | ok edits =>
    have happlies := he.applies (Operation.check_of_mem_inputs he.inhabited hinputs)
    refine ⟨[.batch (edits.map fun edit => ⟨.location edit.1, edit.2⟩)], ?_⟩
    rw [leftBy, hrun, hinputs]
    exact (after_ok happlies.performed).symm

/-- Commands lead wherever operations do, and so all that holds after commands holds of every engine. -/
theorem Reached.exists_afterAll {f : Engine} (h : f.Reached) :
    ∃ (e : Engine) (commands : List Command), e.Started ∧ f = e.afterAll commands := by
  have hafter (e : Engine) (commands others : List Command) :
      (e.afterAll commands).afterAll others = e.afterAll (commands ++ others) := List.foldl_append.symm
  induction h with
  | start h => exact ⟨_, [], h, rfl⟩
  | operation _ op ih =>
    obtain ⟨e, commands, hstarted, rfl⟩ := ih
    obtain ⟨others, heq⟩ := (hstarted.linked_afterAll commands).exists_leftBy_operation op
    exact ⟨e, commands ++ others, hstarted, heq.trans (hafter e commands others)⟩
  | addSheet _ name ih =>
    obtain ⟨e, commands, hstarted, rfl⟩ := ih
    refine ⟨e, commands ++ [.addSheet name], hstarted, ?_⟩
    rw [leftBy_addSheet, ← hafter]
    rfl
  | command _ c ih =>
    obtain ⟨e, commands, hstarted, rfl⟩ := ih
    exact ⟨e, commands ++ [c], hstarted, hafter e commands [c]⟩

theorem Reached.linked (h : e.Reached) : e.Linked := by
  obtain ⟨s, commands, hstarted, rfl⟩ := h.exists_afterAll
  exact hstarted.linked_afterAll commands

/-- In every engine that can be reached, an operation or a new sheet is refused exactly if what it asks for is, and then
    nothing has changed. Otherwise an operation makes all of its inputs and no others. -/
theorem run_of_reached (h : e.Reached) :
    (∀ (op : Operation) refusal f, op.procedure.run e = .error refusal f ↔ op.inputs e = .error refusal ∧ f = e) ∧
      (∀ name refusal f,
        (Procedure.addSheet name).run e = .error refusal f ↔ e.sheets.add name = .error refusal ∧ f = e) ∧
      ∀ (op : Operation) edits, op.inputs e = .ok edits →
        ∃ changes f, op.procedure.run e = .ok changes f ∧ e.Applies edits f changes := by
  have hinhabited := h.linked.inhabited
  refine ⟨fun op refusal f => ?_, fun name refusal f => ?_, fun op edits hinputs => ?_⟩
  · rw [op.run_procedure hinhabited]
    cases op.inputs e with
    | error _ => simp [eq_comm]
    | ok edits => simp
  · rw [Procedure.run_addSheet, addSheet]
    cases e.sheets.add name with
    | error _ => simp [Except.map, eq_comm]
    | ok sheets => simp [Except.map]
  · refine ⟨_, _, ?_, h.linked.applies (Operation.check_of_mem_inputs hinhabited hinputs)⟩
    rw [op.run_procedure hinhabited, hinputs]

/-- Of two requests the second one is refused: a client that gives up leaves no trace of the first, and one that does
    not gets it in. -/
theorem run_of_reached_unknownSheet :
    let f := initial.afterAll [.listen, .input ⟨.location ⟨0, 0, 0⟩, .text "=B1"⟩]
    let queue (next : Except Refusal Unit → Transaction) : Operation :=
      .batch (.queue ⟨.location ⟨0, 0, 1⟩, .text "2"⟩ fun _ => .queue ⟨.address "Nowhere!A1", .text "3"⟩ next)
    (∃ refusal, (queue fun
        | .ok () => .commit
        | .error refusal => .giveUp refusal).procedure.run f = .error refusal f) ∧
      ∃ changes g, (queue fun _ => .commit).procedure.run f = .ok changes g ∧
        f.Applies [(⟨0, 0, 1⟩, .text "2")] g changes := by
  intro f queue
  have hsheets : f.sheets = .initial := by
    have hrules : f.rules = initial.rules := rules_afterAll
    exact congrArg Rules.sheets hrules
  have hfirst : f.accept ⟨.location ⟨0, 0, 1⟩, .text "2"⟩ = .ok (⟨0, 0, 1⟩, .text "2") := by
    rw [accept, target, hsheets]
    rfl
  have hsecond : f.accept ⟨.address "Nowhere!A1", .text "3"⟩ = .error (.unknownSheet "Nowhere") := by
    rw [accept, target, hsheets]
    decide +kernel
  have hreached : f.Reached := ((Reached.start (Or.inl rfl)).command .listen).command
    (.input ⟨.location ⟨0, 0, 0⟩, .text "=B1"⟩)
  obtain ⟨hrefused, -, happlied⟩ := run_of_reached hreached
  refine ⟨⟨.unknownSheet "Nowhere", (hrefused _ _ _).mpr ⟨?_, rfl⟩⟩, happlied _ _ ?_⟩
  · simp only [queue, Operation.inputs, Transaction.collect, hfirst, hsecond]
  · simp only [queue, Operation.inputs, Transaction.collect, hfirst, hsecond]
    rfl

end Engine

end Spreadsheet
