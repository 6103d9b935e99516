/-
Lawbook/Constraint.lean

Constraints: laws combined by conjunction and disjunction, nested to any depth.

Checking a constraint checks every law in it, in order, whatever the others said; only the
verdicts are combined.  So a report lists every broken law and not only the first.

* `check` : the verdict of a constraint, with the state of the host threaded from law to law;
* `lawNames` : the laws of a constraint, in the order in which they are checked;
* `and`, `or` : conjunction and disjunction, spliced into a left operand of the same kind.
-/
import Lawbook.Law

namespace Lawbook

variable {σ α : Type}

/-- A formula over laws. -/
inductive Constraint (σ α : Type) where
  | obeys (law : Law σ α)
  | all (parts : List (Constraint σ α))
  | any (parts : List (Constraint σ α))

namespace Constraint

/-- The constraint that always holds. -/
def trivial : Constraint σ α := all []

instance : Inhabited (Constraint σ α) := ⟨trivial⟩

/-! ### Building constraints -/

/-- Both constraints.  A conjunction on the left takes the other one in. -/
def and (a b : Constraint σ α) : Constraint σ α :=
  match a with
  | all parts => all (parts ++ [b])
  | single => all [single, b]

/-- One of the constraints.  A disjunction on the left takes the other one in. -/
def or (a b : Constraint σ α) : Constraint σ α :=
  match a with
  | any parts => any (parts ++ [b])
  | single => any [single, b]

/-! ### The laws of a constraint -/

mutual

/-- The names of the laws of a constraint, in order. -/
def lawNames : Constraint σ α → List String
  | obeys law => [law.name]
  | all parts => lawNamesOfEach parts
  | any parts => lawNamesOfEach parts

/-- The names of the laws of several constraints, in order. -/
def lawNamesOfEach : List (Constraint σ α) → List String
  | [] => []
  | part :: parts => part.lawNames ++ lawNamesOfEach parts

end

/-- The number of laws of a constraint. -/
def lawCount (a : Constraint σ α) : Nat :=
  a.lawNames.length

theorem lawNamesOfEach_append (as bs : List (Constraint σ α)) :
    lawNamesOfEach (as ++ bs) = lawNamesOfEach as ++ lawNamesOfEach bs := by
  induction as with
  | nil => rfl
  | cons a as ih => simp [lawNamesOfEach, ih]

/-- AND lists the laws of its two sides in order, whether it wraps them or adds to a wrapping. -/
theorem lawNames_and (a b : Constraint σ α) : (a.and b).lawNames = a.lawNames ++ b.lawNames := by
  cases a <;> simp [and, lawNames, lawNamesOfEach, lawNamesOfEach_append]

/-- OR lists the laws of its two sides in order. -/
theorem lawNames_or (a b : Constraint σ α) : (a.or b).lawNames = a.lawNames ++ b.lawNames := by
  cases a <;> simp [or, lawNames, lawNamesOfEach, lawNamesOfEach_append]

/-! ### Checking -/

/-- The heading of a failed conjunction. -/
def allHeading : String := "All constraint failed:"

/-- The heading of a failed disjunction. -/
def anyHeading : String := "Any constraint failed:"

mutual

/-- Checks every law of a constraint and combines their verdicts. -/
def check [Inspectable α] (g : Generator σ α) (c : Config) :
    Constraint σ α → Run σ (Event α) Verdict
  | obeys law => law.check g c
  | all parts => do return (Verdict.all (← checkEach g c parts)).under allHeading
  | any parts => do return (Verdict.any (← checkEach g c parts)).under anyHeading

/-- Checks several constraints, one after the other. -/
def checkEach [Inspectable α] (g : Generator σ α) (c : Config) :
    List (Constraint σ α) → Run σ (Event α) (List Verdict)
  | [] => pure []
  | part :: parts => do
    let verdict ← part.check g c
    return verdict :: (← checkEach g c parts)

end

/-! ### Inspection -/

mutual

/-- A constraint under inspection. -/
def inspect : Constraint σ α → String
  | obeys law => Inspect.tuple "Obeys" [law.inspect]
  | all parts => Inspect.tuple "All" [Inspect.list (inspectEach parts)]
  | any parts => Inspect.tuple "Any" [Inspect.list (inspectEach parts)]

/-- Several constraints under inspection. -/
def inspectEach : List (Constraint σ α) → List String
  | [] => []
  | part :: parts => part.inspect :: inspectEach parts

end

end Constraint

/-! ### Constraints of a single law -/

/-- The constraint that a predicate holds of any `arity` samples. -/
def obey (name : String) (arity : Nat) (predicate : List α → Callback σ Bool) : Constraint σ α :=
  .obeys ⟨name, arity, predicate⟩

end Lawbook
