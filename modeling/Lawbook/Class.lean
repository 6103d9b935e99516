/-
Lawbook/Class.lean

Classes: named sets of laws with parent classes, and the drafts they are registered from.

A draft collects a name, parents and constraints, with one call after the other in any order.
Constraints add up, and one call replaces all that came before it.  A class without a name is called
`Unnamed`.

* `lawNames_laws` : the laws of a class are those of the constraints of its draft, in order;
* `mem_distinct_iff`, `distinct_nodup` : the parents of a class are those of its draft, each once.
-/
import Lawbook.Constraint

namespace Lawbook

variable {σ α : Type}

/-- A named set of laws that extends other classes, in the order of their declaration. -/
structure Class (σ α : Type) where
  name : String
  parents : List ClassId
  laws : Constraint σ α

instance : Inhabited (Class σ α) := ⟨⟨"", [], .trivial⟩⟩

namespace Class

/-- The name of a class that was given none. -/
def unnamed : String := "Unnamed"

/-- Checks the laws of a class itself, without those of its parents. -/
def checkLaws [Inspectable α] (id : ClassId) (g : Generator σ α) (c : Config)
    (cls : Class σ α) : Run σ (Event α) Verdict := do
  Run.emit (.opened id g.id c.skip)
  let verdict ← cls.laws.check g c
  Run.emit (.closed id g.id verdict)
  return verdict

/-- A class under inspection. -/
def inspect (id : ClassId) (cls : Class σ α) : String :=
  Inspect.record "Class"
    [("id", id.inspect), ("name", Text.quoted cls.name),
     ("parents", Inspect.list (cls.parents.map ClassId.inspect)), ("laws", cls.laws.inspect)]

end Class

/-! ### Lists without repetition -/

/-- The members of a list, each at its first place. -/
def distinct {β : Type} [DecidableEq β] (xs : List β) : List β :=
  xs.foldl (fun seen x => if x ∈ seen then seen else seen ++ [x]) []

section Distinct

variable {β : Type} [DecidableEq β]

/-- The list that is built up has what was seen and what comes, by induction on what is to come. -/
theorem mem_foldl_distinct_iff (xs seen : List β) (y : β) :
    y ∈ xs.foldl (fun seen x => if x ∈ seen then seen else seen ++ [x]) seen ↔
      y ∈ seen ∨ y ∈ xs := by
  induction xs generalizing seen with
  | nil => simp
  | cons x xs ih =>
    rw [List.foldl_cons, ih]
    by_cases h : x ∈ seen
    · simp only [h, if_true, List.mem_cons]
      constructor
      · rintro (h | h)
        · exact .inl h
        · exact .inr (.inr h)
      · rintro (h' | rfl | h')
        · exact .inl h'
        · exact .inl h
        · exact .inr h'
    · simp [h, or_assoc]

/-- No member is lost, and none is invented. -/
theorem mem_distinct_iff {xs : List β} {y : β} : y ∈ distinct xs ↔ y ∈ xs := by
  simp [distinct, mem_foldl_distinct_iff]

/-- One member more is put at the end, unless it was there before. -/
theorem distinct_append_singleton (xs : List β) (x : β) :
    distinct (xs ++ [x]) = if x ∈ distinct xs then distinct xs else distinct xs ++ [x] := by
  rw [distinct, List.foldl_append]
  rfl

/-- No member is repeated: a member joins only if it was not seen. -/
theorem distinct_nodup (xs : List β) : (distinct xs).Nodup := by
  suffices h : ∀ seen : List β, seen.Nodup →
      (xs.foldl (fun seen x => if x ∈ seen then seen else seen ++ [x]) seen).Nodup from
    h [] List.nodup_nil
  induction xs with
  | nil => exact fun _ h => h
  | cons x xs ih =>
    intro seen hs
    rw [List.foldl_cons]
    by_cases h : x ∈ seen
    · simpa [h] using ih seen hs
    · refine ih _ ?_
      simp only [h, if_false]
      exact List.nodup_append.2 ⟨hs, by simp, by rintro a ha b hb rfl; simp_all⟩

end Distinct

/-! ### Drafts -/

/-- A class definition before it is registered. -/
structure Draft (σ α : Type) where
  name : Option String
  parents : List ClassId
  constraints : List (Constraint σ α)

namespace Draft

/-- A draft that says nothing yet. -/
def blank : Draft σ α := ⟨none, [], []⟩

/-- Gives the class a name. -/
def named (name : String) (d : Draft σ α) : Draft σ α := { d with name := some name }

/-- Lets the class extend another one. -/
def extending (parent : ClassId) (d : Draft σ α) : Draft σ α :=
  { d with parents := d.parents ++ [parent] }

/-- Lets the class extend several others. -/
def extendingAll (parents : List ClassId) (d : Draft σ α) : Draft σ α :=
  { d with parents := d.parents ++ parents }

/-- Adds a constraint to those that must hold. -/
def requiring (a : Constraint σ α) (d : Draft σ α) : Draft σ α :=
  { d with constraints := d.constraints ++ [a] }

/-- Replaces all constraints so far by one. -/
def requiringOnly (a : Constraint σ α) (d : Draft σ α) : Draft σ α :=
  { d with constraints := [a] }

/-- The name of the class that is drafted. -/
def className (d : Draft σ α) : String :=
  d.name.getD Class.unnamed

/-- The constraint that the class imposes: all that were added.  One alone is not wrapped. -/
def laws (d : Draft σ α) : Constraint σ α :=
  match d.constraints with
  | [] => .trivial
  | [a] => a
  | constraints => .all constraints

/-- One call on a draft. -/
inductive Clause (σ α : Type) where
  | named (name : String)
  | extending (parent : ClassId)
  | extendingAll (parents : List ClassId)
  | requiring (a : Constraint σ α)
  | requiringOnly (a : Constraint σ α)

/-- The draft after a call on it. -/
def Clause.apply (d : Draft σ α) : Clause σ α → Draft σ α
  | named name => d.named name
  | extending parent => d.extending parent
  | extendingAll parents => d.extendingAll parents
  | requiring a => d.requiring a
  | requiringOnly a => d.requiringOnly a

/-- The draft that calls write, one after the other. -/
def written (clauses : List (Clause σ α)) : Draft σ α :=
  clauses.foldl Clause.apply blank

/-- The class that is drafted. -/
def toClass (d : Draft σ α) : Class σ α :=
  ⟨d.className, distinct d.parents, d.laws⟩

/-- The laws of a class are those of the constraints of its draft, in order, wrapped or not. -/
theorem lawNames_laws (d : Draft σ α) :
    d.laws.lawNames = Constraint.lawNamesOfEach d.constraints := by
  unfold laws
  split
  · next h => simp [h, Constraint.trivial, Constraint.lawNames]
  · next a h => simp [h, Constraint.lawNamesOfEach]
  · rfl

end Draft

end Lawbook
