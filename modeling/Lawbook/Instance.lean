/-
Lawbook/Instance.lean

Instances: which subjects were declared to belong to which classes.

A subject is a type of values that can be built from numbers.  A table keeps, for each subject,
the classes it was declared against and whether they were validated since.  Declared classes can
be validated directly, without the records of a registry, by checking the laws of each of them and
of each ancestor once; and a registry's validation of a generator can itself be the declaration.

* `Membership.declare` : a declaration appends a class at most once and calls for validation;
* `validateAll` : the laws of all declared classes and their ancestors, each once, and those of the
  farthest ancestors of a declared class first;
* `InstanceTable.validate`, `InstanceTable.enroll` : validation of what is declared, and
  declaration of what is validated.
-/
import Lawbook.Class.Registry
import Lawbook.Generator.Continuous

namespace Lawbook

variable {σ ω α κ : Type}

/-! ### Declared classes -/

/-- The classes that a subject was declared against. -/
structure Membership where
  classes : List ClassId
  /-- Whether they were validated since the last declaration. -/
  validated : Bool
deriving DecidableEq, Repr, Inhabited

namespace Membership

/-- No declared classes. -/
def empty : Membership := ⟨[], false⟩

/-- One more declared class. -/
def declare (m : Membership) (id : ClassId) : Membership :=
  ⟨if id ∈ m.classes then m.classes else m.classes ++ [id], false⟩

/-- Whether a class is declared or an ancestor of a declared class. -/
def isInstanceOf (h : Hierarchy σ α) (m : Membership) (id : ClassId) : Bool :=
  m.classes.any fun declared => h.isSubclass declared id

/-- Declared classes under inspection. -/
def inspect (m : Membership) : String :=
  Inspect.record "InstanceMetadata"
    [("classes", Inspect.list (m.classes.map ClassId.inspect)),
     ("validated", Inspect.bool m.validated)]

end Membership

/-! ### Subjects -/

/-- A type of values that are built from `arity` numbers, and the key it has in tables. -/
structure Subject (κ ω α : Type) where
  key : κ
  name : String
  arity : Nat
  build : List Float → Callback ω α

/-- The generator of a subject, with the source of the configuration. -/
def Subject.generator (s : Subject κ ω α) (id : GeneratorId) (c : Config) : Continuous ω α :=
  ⟨id, s.name, s.arity, s.build, c.random⟩

/-! ### Errors -/

/-- What can go wrong at the boundary of declarations. -/
inductive InstanceError where
  | noDeclaredClasses (subject : String)
  | lawViolation (subject names report : String)
  | badClass (error : ClassError)
deriving DecidableEq, Repr

/-- What such an error says. -/
def InstanceError.message : InstanceError → String
  | noDeclaredClasses subject => s!"{subject} has no declared classes"
  | lawViolation subject names report => s!"{subject} is not a valid {names}:\n\n{report}"
  | badClass error => error.message

/-! ### Direct validation -/

namespace Hierarchy

/-- A class behind its ancestors, the farthest first. -/
def lineage (h : Hierarchy σ α) (id : ClassId) : List ClassId :=
  (h.ancestors id).reverse ++ [id]

/-- The declared classes and their ancestors in the order in which they are checked. -/
def agenda (h : Hierarchy σ α) (m : Membership) : List ClassId :=
  distinct (m.classes.flatMap h.lineage)

variable [Inspectable α]

/-- The heading of the broken laws of a class, for a subject. -/
def subjectHeading (subject name : String) : String :=
  s!"Class {subject} fails the laws of {name}"

/-- Checks the own laws of a class for a subject. -/
def checkFor (h : Hierarchy σ α) (g : Generator σ α) (c : Config) (id : ClassId) :
    Run σ (Event α) Verdict :=
  match h.find id with
  | .error e => return Verdict.fail e.message
  | .ok cls => do
    return (← cls.checkLaws id g c).under (subjectHeading g.name cls.name)

end Hierarchy

/-- Checks the laws of every declared class and of every ancestor, each once, on values of the
subject itself.  Records are neither used nor made. -/
def validateAll [Inspectable α] (h : Hierarchy (World ω) α) (s : Subject κ ω α) (id : GeneratorId)
    (m : Membership) (c : Config) : Run (World ω) (Event α) Verdict :=
  if m.classes.isEmpty then
    return Verdict.fail (InstanceError.noDeclaredClasses s.name).message
  else do
    -- one generator for all classes, so that its source is read on from law to law
    let g := (s.generator id c).toGenerator
    return Verdict.all (← (h.agenda m).mapM (h.checkFor g c))

/-! ### Tables -/

/-- The declared classes of subjects, by their keys. -/
structure InstanceTable (κ : Type) where
  entries : List (κ × Membership)

namespace InstanceTable

variable [DecidableEq κ]

/-- The table without declarations. -/
def empty : InstanceTable κ := ⟨[]⟩

/-- The number of subjects with declarations. -/
def size (t : InstanceTable κ) : Nat :=
  t.entries.length

/-- The declared classes of a key among entries. -/
def lookup (key : κ) : List (κ × Membership) → Option Membership
  | [] => none
  | (other, m) :: rest => if other = key then some m else lookup key rest

/-- The declared classes of a subject. -/
def membership? (t : InstanceTable κ) (key : κ) : Option Membership :=
  lookup key t.entries

/-- Entries with another value at a key, or with one more entry. -/
def assign (key : κ) (m : Membership) : List (κ × Membership) → List (κ × Membership)
  | [] => [(key, m)]
  | (other, old) :: rest =>
    if other = key then (other, m) :: rest else (other, old) :: assign key m rest

/-- The table with the declared classes of a subject replaced. -/
def set (t : InstanceTable κ) (key : κ) (m : Membership) : InstanceTable κ :=
  ⟨assign key m t.entries⟩

/-- To write down the classes of one subject changes nothing for another one. -/
theorem membership?_set (t : InstanceTable κ) (key other : κ) (m : Membership) :
    (t.set key m).membership? other = if key = other then some m else t.membership? other := by
  obtain ⟨entries⟩ := t
  simp only [set, membership?]
  induction entries with
  | nil => simp [assign, lookup]
  | cons entry rest ih =>
    obtain ⟨k, old⟩ := entry
    rw [assign]
    split
    · next hk => subst hk; by_cases h : k = other <;> simp [lookup, h]
    · next hk =>
      by_cases h : k = other
      · have : ¬ key = other := fun e => hk (h.trans e.symm)
        simp [lookup, h, this]
      · simpa [lookup, h] using ih

/-- Declares a subject an instance of a class.  Nothing is validated here. -/
def declare (t : InstanceTable κ) (key : κ) (id : ClassId) : InstanceTable κ :=
  t.set key (((t.membership? key).getD .empty).declare id)

/-- Whether a class is declared for a subject or an ancestor of a declared class. -/
def isInstance (t : InstanceTable κ) (h : Hierarchy σ α) (key : κ) (id : ClassId) : Bool :=
  match t.membership? key with
  | none => false
  | some m => m.isInstanceOf h id

variable [Inspectable α]

/-- Validates what is declared for a subject, and notes a success. -/
def validate (t : InstanceTable κ) (h : Hierarchy (World ω) α) (s : Subject κ ω α)
    (id : GeneratorId) (c : Config) :
    Run (World ω) (Event α) (Except InstanceError Unit × InstanceTable κ) :=
  match t.membership? s.key with
  | none => return (.error (.noDeclaredClasses s.name), t)
  | some m => do
    match ← validateAll h s id m c with
    | .success =>
      Run.emit (.logged (.declarationsHold s.name))
      return (.ok (), t.set s.key { m with validated := true })
    | .failure report =>
      let names := ", ".intercalate (m.classes.map h.nameOf)
      Run.emit (.logged (.declarationsFail s.name names))
      return (.error (.lawViolation s.name names report), t)

/-- Validates a class against a generator and, on success, declares the subject an instance of
it. -/
def enroll (t : InstanceTable κ) (r : Registry σ α) (key : κ) (id : ClassId) (g : Generator σ α)
    (c : Config) :
    Run σ (Event α) (Except InstanceError Unit × InstanceTable κ × Registry σ α) :=
  match r.hierarchy.find id with
  | .error e => return (.error (.badClass e), t, r)
  | .ok cls => do
    let (verdict, r) ← r.validate id g c
    match verdict with
    | .success => return (.ok (), t.declare key id, r)
    | .failure report => return (.error (.lawViolation g.name cls.name report), t, r)

end InstanceTable

end Lawbook
