import Spreadsheet.Proofs.Formula.Resolution

/-! # Names of sheets

However sheets are added, no two of them have the same name, so that the name of a sheet leads back to it in any
case (`Sheets.Distinct.indexOf?_eq`). A call that adds a sheet is accepted exactly if the name is proper and not taken,
and what is refused changes nothing (`Sheets.run_enroll`). -/

namespace Spreadsheet.Sheets
open Text

/-- The sheets that a workbook can have: none or the one it starts with, and those added to them. -/
inductive Reached : Sheets → Prop where
  | empty : Reached .empty
  | initial : Reached .initial
  | add {s t : Sheets} {name : String} (h : Reached s) (hadd : s.add name = .ok t) : Reached t

/-- No two sheets have the same name. -/
def Distinct (s : Sheets) : Prop :=
  s.names.Pairwise fun m n => ¬SameName m n

variable {s t : Sheets} {name n : String}

theorem Distinct.add (h : s.Distinct) (hadd : s.add name = .ok t) : t.Distinct := by
  obtain ⟨hnone, rfl⟩ := add_eq_ok hadd
  rw [indexOf?, List.findIdx?_eq_none_iff] at hnone
  refine List.pairwise_append.mpr ⟨h, List.pairwise_singleton _ _, fun m hm n hn => ?_⟩
  rw [List.mem_singleton.mp hn]
  exact of_decide_eq_false (hnone m hm)

theorem Reached.distinct (h : s.Reached) : s.Distinct := by
  induction h with
  | empty => exact .nil
  | initial => exact List.pairwise_singleton _ _
  | add _ hadd ih => exact ih.add hadd

theorem Distinct.indexOf?_eq (h : s.Distinct) {sheet : Nat} (hname : s.name? sheet = some name)
    (hsame : SameName n name) : s.indexOf? n = some sheet := by
  obtain ⟨hlt, hget⟩ := List.getElem?_eq_some_iff.mp hname
  refine List.findIdx?_eq_some_iff_getElem.mpr ⟨hlt, decide_eq_true ?_, fun earlier hearlier => ?_⟩
  · exact hget ▸ hsame.symm
  · have hne := List.pairwise_iff_getElem.mp h earlier sheet (Nat.lt_trans hearlier hlt) hlt hearlier
    simpa using fun hsame' => hne (hget ▸ hsame'.trans hsame)

/-! ### Calls that add sheets -/

/-- A name that a sheet may have if no other sheet has it. -/
structure Proper (name : String) : Prop where
  nonempty : name ≠ ""
  length_le : name.length ≤ sheetNameLength
  allowed : ∀ c ∈ name.toList, c ∉ forbiddenCharacters

theorem nameFlaw?_eq_none_iff : nameFlaw? name = none ↔ Proper name := by
  have hempty : name.toList = [] ↔ name = "" := String.toList_eq_nil_iff
  unfold nameFlaw?
  simp only
  split
  · next hnil => exact iff_of_false nofun fun h => h.nonempty (hempty.mp hnil)
  · next hne =>
    split
    · next hlong => exact iff_of_false nofun fun h => Nat.not_lt.mpr h.length_le (String.length_toList ▸ hlong)
    · next hshort =>
      simp only [Option.map_eq_none_iff, List.find?_eq_none, decide_eq_true_eq]
      refine ⟨fun h => ⟨fun heq => hne (hempty.mpr heq), ?_, h⟩, fun h => h.allowed⟩
      exact String.length_toList (s := name) ▸ Nat.not_lt.mp hshort

theorem Proper.add (h : Proper name) (hnone : s.indexOf? name = none) : s.add name = .ok ⟨s.names ++ [name]⟩ := by
  rw [Sheets.add, nameFlaw?_eq_none_iff.mpr h]
  simp [hnone]

theorem proper_of_add (h : s.add name = .ok t) : Proper name := by
  unfold Sheets.add at h
  split at h
  · cases h
  · next hflaw => exact nameFlaw?_eq_none_iff.mp hflaw

/-- No two sheets have the same name, and each has a name that a sheet may have. -/
structure WellNamed (s : Sheets) : Prop where
  distinct : s.Distinct
  proper : ∀ name ∈ s.names, Proper name

theorem Reached.wellNamed (h : s.Reached) : s.WellNamed := by
  refine ⟨h.distinct, ?_⟩
  induction h with
  | empty => exact nofun
  | initial =>
    intro name hname
    obtain rfl := List.mem_singleton.mp hname
    exact ⟨by decide, by decide, by simp [defaultName, forbiddenCharacters]⟩
  | add _ hadd ih =>
    obtain ⟨-, rfl⟩ := add_eq_ok hadd
    intro name hname
    rcases List.mem_append.mp hname with hname | hname
    · exact ih name hname
    · exact List.mem_singleton.mp hname ▸ proper_of_add hadd

theorem run_enroll_eq : (enroll name).run s = match s.add name with
    | .ok t => .ok (t.size - 1) t
    | .error refusal => .error refusal s := by
  unfold enroll
  rw [EStateM.run_bind, EStateM.run_get]
  cases hadd : s.add name <;> simp only [hadd] <;> rfl

/-- What a call does: it appends a name that is proper and not taken, and leaves all as it is with any other. -/
theorem run_enroll (s : Sheets) (name : String) :
    (Proper name ∧ s.indexOf? name = none ∧ (enroll name).run s = .ok s.size ⟨s.names ++ [name]⟩) ∨
      (¬(Proper name ∧ s.indexOf? name = none) ∧ ∃ refusal, (enroll name).run s = .error refusal s) := by
  cases hadd : s.add name with
  | ok t =>
    obtain ⟨hnone, rfl⟩ := add_eq_ok hadd
    refine .inl ⟨proper_of_add hadd, hnone, ?_⟩
    rw [run_enroll_eq, hadd]
    simp [size]
  | error refusal =>
    refine .inr ⟨?_, refusal, by rw [run_enroll_eq, hadd]⟩
    rintro ⟨hproper, hnone⟩
    rw [hproper.add hnone] at hadd
    cases hadd

/-! ### Histories -/

/-- The sheets that calls start from: none, the default one, or one with a name that was accepted. -/
inductive Opening : Sheets → Prop where
  | empty : Opening .empty
  | initial : Opening .initial
  | single {s : Sheets} {name : String} (h : Sheets.single name = .ok s) : Opening s

theorem Opening.reached (h : s.Opening) : s.Reached := by
  cases h with
  | empty => exact .empty
  | initial => exact .initial
  | single h => exact Reached.empty.add h

theorem enrollAll_cons (s : Sheets) (name : String) (calls : List String) :
    s.enrollAll (name :: calls) = match s.add name with
      | .ok t => t.enrollAll calls
      | .error _ => s.enrollAll calls := by
  rw [enrollAll, List.foldl_cons, run_enroll_eq]
  cases s.add name <;> rfl

theorem Reached.enrollAll (h : s.Reached) (calls : List String) : (s.enrollAll calls).Reached := by
  induction calls generalizing s with
  | nil => exact h
  | cons name calls ih =>
    rw [enrollAll_cons]
    cases hadd : s.add name with
    | ok t => exact ih (h.add hadd)
    | error => exact ih h

/-- Calls keep the sheets that are there, in their places. -/
theorem name?_enrollAll {id : Nat} (h : s.name? id = some name) (calls : List String) :
    (s.enrollAll calls).name? id = some name := by
  induction calls generalizing s with
  | nil => exact h
  | cons call calls ih =>
    rw [enrollAll_cons]
    cases hadd : s.add call with
    | ok t =>
      obtain ⟨-, rfl⟩ := add_eq_ok hadd
      exact ih ((List.getElem?_append_left (List.getElem?_eq_some_iff.mp h).1).trans h)
    | error => exact ih h

/-- A call answers with the place at which the new sheet stands. -/
theorem name?_of_run_enroll {id : Nat} (h : (enroll name).run s = .ok id t) : t.name? id = some name := by
  rcases run_enroll s name with ⟨-, -, hrun⟩ | ⟨-, refusal, hrun⟩
  · rw [hrun] at h
    cases h
    exact List.getElem?_concat_length
  · rw [hrun] at h
    cases h

/-- After any calls, accepted or refused, the names are proper and differ from each other, each of them leads to its
    sheet in any case, what a call answered with has its name for ever, and the next call is accepted exactly if its
    name is proper and not taken. -/
theorem enrollAll_lookup (h : s.Opening) (calls : List String) :
    (s.enrollAll calls).WellNamed ∧
      (∀ id < (s.enrollAll calls).size, ∃ name, (s.enrollAll calls).name? id = some name ∧
        (∀ n, SameName n name → (s.enrollAll calls).indexOf? n = some id) ∧
        ∀ later, ((s.enrollAll calls).enrollAll later).name? id = some name) ∧
      (∀ name id t, (enroll name).run (s.enrollAll calls) = .ok id t →
        ∀ later, (t.enrollAll later).name? id = some name) ∧
      ∀ name,
        (Proper name ∧ (s.enrollAll calls).indexOf? name = none ∧
          (enroll name).run (s.enrollAll calls) =
            .ok (s.enrollAll calls).size ⟨(s.enrollAll calls).names ++ [name]⟩) ∨
        (¬(Proper name ∧ (s.enrollAll calls).indexOf? name = none) ∧
          ∃ refusal, (enroll name).run (s.enrollAll calls) = .error refusal (s.enrollAll calls)) := by
  have hnamed := (h.reached.enrollAll calls).wellNamed
  refine ⟨hnamed, fun id hid => ?_, fun name id t hrun => ?_, run_enroll _⟩
  · have hname : (s.enrollAll calls).name? id = some (s.enrollAll calls).names[id] := List.getElem?_eq_getElem hid
    exact ⟨_, hname, fun n => hnamed.distinct.indexOf?_eq hname, name?_enrollAll hname⟩
  · exact name?_enrollAll (name?_of_run_enroll hrun)

theorem enrollAll_lookup_initial : Sheets.initial.Opening ∧
    (∃ name, (initial.enrollAll ["Data", "data", "a/b"]).name? 1 = some name ∧
      (∀ n, SameName n name → (initial.enrollAll ["Data", "data", "a/b"]).indexOf? n = some 1) ∧
      ∀ later, ((initial.enrollAll ["Data", "data", "a/b"]).enrollAll later).name? 1 = some name) ∧
    ∃ refusal, (enroll "SHEET1").run (initial.enrollAll ["Data", "data", "a/b"]) =
      .error refusal (initial.enrollAll ["Data", "data", "a/b"]) := by
  obtain ⟨-, hids, -, hcalls⟩ := enrollAll_lookup .initial ["Data", "data", "a/b"]
  refine ⟨.initial, hids 1 (by decide +kernel), ?_⟩
  exact ((hcalls "SHEET1").resolve_left fun h => absurd h.2.1 (by decide +kernel)).2

end Spreadsheet.Sheets
