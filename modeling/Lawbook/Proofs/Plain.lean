/-
Lawbook/Proofs/Plain.lean

Plain laws: laws whose predicates only ever answer.

A call of a predicate may end in an error or a crash.  Its plain version answers `false` instead
and does the same to the host.  Constraints, drafts, classes and hierarchies become plain law by
law, and whatever is asked of them besides their laws stays the same: names, numbers of laws,
parents and ancestors.  To register a plain draft is to register the draft and make the hierarchy
plain (`Hierarchy.register_plain`).
-/
import Lawbook.Instance
import Lawbook.Proofs.Ancestry

namespace Lawbook

variable {σ α : Type}

/-! ### Laws -/

/-- The call that answers `false` where the given one ends in an error or a crash. -/
def Callback.plain (call : Callback σ Bool) : Callback σ Bool := fun s =>
  match call s with
  | (.error _, s') => (.ok false, s')
  | answer => answer

/-- The law with a predicate that only answers. -/
def Law.plain (law : Law σ α) : Law σ α :=
  { law with predicate := fun values => (law.predicate values).plain }

namespace Callback

variable (call : Callback σ Bool) (s : σ)

/-- What a call does to the host stays. -/
theorem plain_snd : (call.plain s).2 = (call s).2 := by
  unfold plain
  rcases call s with ⟨_ | _, _⟩ <;> rfl

/-- A call that ends in an error or a crash answers `false` now, so `true` is answered in the same
states as before. -/
theorem plain_fst_eq_true_iff : (call.plain s).1 = .ok true ↔ (call s).1 = .ok true := by
  unfold plain
  rcases call s with ⟨_ | _, _⟩ <;> simp

end Callback

/-! ### Constraints -/

namespace Constraint

mutual

/-- The constraint with plain laws. -/
def plain : Constraint σ α → Constraint σ α
  | obeys law => obeys law.plain
  | all parts => all (plainEach parts)
  | any parts => any (plainEach parts)

/-- Several constraints with plain laws. -/
def plainEach : List (Constraint σ α) → List (Constraint σ α)
  | [] => []
  | part :: parts => part.plain :: plainEach parts

end

mutual

/-- The laws keep their names and their order: only predicates change. -/
theorem lawNames_plain : ∀ a : Constraint σ α, a.plain.lawNames = a.lawNames
  | obeys _ => rfl
  | all parts => lawNamesOfEach_plainEach parts
  | any parts => lawNamesOfEach_plainEach parts

theorem lawNamesOfEach_plainEach :
    ∀ parts : List (Constraint σ α), lawNamesOfEach (plainEach parts) = lawNamesOfEach parts
  | [] => rfl
  | part :: parts => by
    rw [plainEach, lawNamesOfEach, lawNamesOfEach, lawNames_plain part,
      lawNamesOfEach_plainEach parts]

end

theorem lawCount_plain (a : Constraint σ α) : a.plain.lawCount = a.lawCount := by
  rw [lawCount, lawCount, lawNames_plain]

end Constraint

/-! ### Classes and drafts -/

/-- The class with plain laws. -/
def Class.plain (cls : Class σ α) : Class σ α :=
  { cls with laws := cls.laws.plain }

/-- The draft with plain laws. -/
def Draft.plain (d : Draft σ α) : Draft σ α :=
  { d with constraints := Constraint.plainEach d.constraints }

/-- A draft imposes the plain form of what it imposed, also where one constraint stands alone. -/
theorem Draft.laws_plain (d : Draft σ α) : d.plain.laws = d.laws.plain := by
  obtain ⟨name, parents, constraints⟩ := d
  match constraints with
  | [] => rfl
  | [a] => rfl
  | a :: b :: rest => rfl

/-- Name and parents of a class do not go through predicates. -/
theorem Draft.toClass_plain (d : Draft σ α) : d.plain.toClass = d.toClass.plain := by
  rw [toClass, laws_plain]
  rfl

/-! ### Hierarchies -/

namespace Hierarchy

/-- The hierarchy with plain laws. -/
def plain (h : Hierarchy σ α) : Hierarchy σ α where
  classes := h.classes.map Class.plain
  parents_lt := by
    intro i cls hc p hp
    rw [Array.getElem?_map, Option.map_eq_some_iff] at hc
    obtain ⟨cls', hc', rfl⟩ := hc
    exact h.parents_lt i cls' hc' p hp

variable (h : Hierarchy σ α) (id : ClassId) (d : Draft σ α)

theorem plain_empty : (empty : Hierarchy σ α).plain = empty := by
  simp only [plain, empty, Array.map_empty]

/-- No class is lost. -/
theorem size_plain : h.plain.size = h.size :=
  Array.size_map

theorem nextId_plain : h.plain.nextId = h.nextId := by
  rw [nextId, nextId, size_plain]

/-- Each class is the plain form of the class that was there. -/
theorem class?_plain : h.plain.class? id = (h.class? id).map Class.plain :=
  Array.getElem?_map

theorem find_plain : h.plain.find id = (h.find id).map Class.plain := by
  unfold find
  rw [class?_plain]
  cases h.class? id <;> rfl

theorem nameOf_plain : h.plain.nameOf id = h.nameOf id := by
  unfold nameOf
  rw [class?_plain]
  cases h.class? id <;> rfl

/-- The parents stay, so all that is said of ancestors stays as well. -/
theorem parentsOf_plain : h.plain.parentsOf id = h.parentsOf id := by
  unfold parentsOf
  rw [class?_plain]
  cases h.class? id <;> rfl

/-- A walk upwards looks at parents only. -/
theorem climb_plain (root : ClassId) (n : Nat) (seen level : List ClassId) :
    climb h.plain root n seen level = climb h root n seen level := by
  induction n generalizing seen level with
  | zero => rfl
  | succ n ih =>
    cases level with
    | nil => rfl
    | cons id level =>
      have hparents : h.plain.parentsOf = h.parentsOf := funext h.parentsOf_plain
      simp only [climb, hparents, ih]

/-- The search for ancestors goes by parents only. -/
theorem ancestors_plain : h.plain.ancestors id = h.ancestors id := by
  rw [ancestors, ancestors, climb_plain, parentsOf_plain]

/-- What is on the agenda of a direct validation goes by ancestors only. -/
theorem agenda_plain (m : Membership) : h.plain.agenda m = h.agenda m := by
  have hlineage : h.plain.lineage = h.lineage := by
    funext id
    rw [lineage, lineage, ancestors_plain]
  rw [agenda, agenda, hlineage]

/-- A draft has the same missing parents. -/
theorem missingParent?_plain : h.plain.missingParent? d.plain = h.missingParent? d := by
  unfold missingParent?
  rw [size_plain]
  rfl

/-- **To register a plain draft is to register the draft** and make the hierarchy plain. -/
theorem register_plain : h.plain.register d.plain = (h.register d).map plain := by
  have hmissing := h.missingParent?_plain d
  cases hp : h.missingParent? d with
  | some parent =>
    rw [register_of_some hp, register_of_some (hmissing.trans hp)]
    rfl
  | none =>
    rw [register_of_none hp, register_of_none (hmissing.trans hp)]
    refine congrArg Except.ok ?_
    simp only [push, plain, Draft.toClass_plain, Array.map_push]

end Hierarchy

end Lawbook
