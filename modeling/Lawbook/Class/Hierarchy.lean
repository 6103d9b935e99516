/-
Lawbook/Class/Hierarchy.lean

Hierarchies: the classes of a registry and who extends whom.

A class can only extend classes that were there before it, so the numbers of the parents of a
class lie below its own.  This is part of the type, and it bounds every walk through the
hierarchy: the walk from a class has no more steps than there are classes before it.

* `ancestors` : the transitive parents of a class, nearest first;
* `isSubclass` : whether a class is another one or descends from it;
* `register` : a class joins the hierarchy, or names a parent that is not there.
-/
import Lawbook.Class

namespace Lawbook

variable {σ α : Type}

/-- What can go wrong with references to classes. -/
inductive ClassError where
  | unknownParent (name : String) (parent : ClassId)
  | unknownClass (id : ClassId)
deriving DecidableEq, Repr

/-- What a class error says. -/
def ClassError.message : ClassError → String
  | unknownParent name parent => s!"Class {name} extends unknown class {parent.inspect}"
  | unknownClass id => s!"Unknown class {id.inspect}"

/-- Classes in the order of their registration. -/
structure Hierarchy (σ α : Type) where
  classes : Array (Class σ α)
  parents_lt : ∀ (i : Nat) (cls : Class σ α), classes[i]? = some cls →
    ∀ p ∈ cls.parents, p.index < i

namespace Hierarchy

/-- The hierarchy without classes. -/
def empty : Hierarchy σ α := ⟨#[], by simp⟩

instance : Inhabited (Hierarchy σ α) := ⟨empty⟩

/-! ### Looking classes up -/

/-- The number of classes. -/
def size (h : Hierarchy σ α) : Nat :=
  h.classes.size

/-- The class of a number. -/
def class? (h : Hierarchy σ α) (id : ClassId) : Option (Class σ α) :=
  h.classes[id.index]?

/-- The class of a number, or the error that there is none. -/
def find (h : Hierarchy σ α) (id : ClassId) : Except ClassError (Class σ α) :=
  match h.class? id with
  | some cls => .ok cls
  | none => .error (.unknownClass id)

/-- The name of a class. -/
def nameOf (h : Hierarchy σ α) (id : ClassId) : String :=
  ((h.class? id).map Class.name).getD Class.unnamed

/-- The parents of a class; a class that is not there has none. -/
def parentsOf (h : Hierarchy σ α) (id : ClassId) : List ClassId :=
  ((h.class? id).map Class.parents).getD []

/-- Classes are numbered without gaps, so a class is there exactly if its number is small enough. -/
theorem class?_isSome_iff {h : Hierarchy σ α} {id : ClassId} :
    (h.class? id).isSome ↔ id.index < h.size := by
  simp [class?, size]

/-- Parents have smaller numbers than their children, so no chain of parents comes back. -/
theorem lt_of_mem_parentsOf {h : Hierarchy σ α} {p id : ClassId} (hp : p ∈ h.parentsOf id) :
    p.index < id.index := by
  unfold parentsOf at hp
  cases hc : h.class? id with
  | none => simp [hc] at hp
  | some cls => simp only [hc] at hp; exact h.parents_lt _ _ hc _ hp

/-! ### Walking upwards -/

/-- The classes of a level that were not met before, each once, behind those that were. -/
def meet (root : ClassId) (seen level : List ClassId) : List ClassId :=
  level.foldl (fun seen id => if id = root ∨ id ∈ seen then seen else seen ++ [id]) seen

/-- Level by level, the classes met on the way up from `root`.  All classes of a level have numbers
below the bound `n`, so their parents have numbers below `n - 1`; the walk ends at the latest when
the bound is used up, and as soon as a level is empty. -/
def climb (h : Hierarchy σ α) (root : ClassId) :
    Nat → List ClassId → List ClassId → List ClassId
  | 0, seen, _ => seen
  | _ + 1, seen, [] => seen
  | n + 1, seen, level =>
    -- only what is new on this level leads further up
    let seen' := meet root seen level
    let fresh := seen'.drop seen.length
    climb h root n seen' (fresh.flatMap h.parentsOf)

/-- The transitive parents of a class, each once, nearest first. -/
def ancestors (h : Hierarchy σ α) (id : ClassId) : List ClassId :=
  climb h id id.index [] (h.parentsOf id)

/-- Whether a class is `ancestor` or has it among its transitive parents. -/
def isSubclass (h : Hierarchy σ α) (id ancestor : ClassId) : Bool :=
  id = ancestor || ancestor ∈ h.ancestors id

/-! ### Registration -/

/-- The first parent that a draft names and that is not there. -/
def missingParent? (h : Hierarchy σ α) (d : Draft σ α) : Option ClassId :=
  d.parents.find? fun p => h.size ≤ p.index

/-- The number that the next class gets. -/
def nextId (h : Hierarchy σ α) : ClassId := ⟨h.size⟩

/-- The hierarchy with one more class, whose parents are all there. -/
def push (h : Hierarchy σ α) (cls : Class σ α) (hp : ∀ p ∈ cls.parents, p.index < h.size) :
    Hierarchy σ α where
  classes := h.classes.push cls
  parents_lt := by
    intro i other ho p hm
    rw [Array.getElem?_push] at ho
    split at ho
    · next hi =>
      cases ho
      exact hi ▸ hp p hm
    · exact h.parents_lt i other ho p hm

/-- A draft without missing parents can join: all parents that it names are there. -/
theorem lt_of_missingParent?_eq_none {h : Hierarchy σ α} {d : Draft σ α}
    (hn : h.missingParent? d = none) : ∀ p ∈ d.toClass.parents, p.index < h.size := by
  intro p hp
  have := List.find?_eq_none.1 hn p (mem_distinct_iff.1 hp)
  simpa using this

/-- The hierarchy with the class of a draft, or the first parent that is not there. -/
def register (h : Hierarchy σ α) (d : Draft σ α) : Except ClassError (Hierarchy σ α) :=
  match hn : h.missingParent? d with
  | some parent => .error (.unknownParent d.className parent)
  | none => .ok (h.push d.toClass (lt_of_missingParent?_eq_none hn))

end Hierarchy

end Lawbook
