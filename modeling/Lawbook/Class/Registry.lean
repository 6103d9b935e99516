/-
Lawbook/Class/Registry.lean

Registries: a hierarchy of classes together with the verdicts found so far.

To validate a class against a generator is to validate its parents first and then to check its own
laws.  The outcome is recorded, so that an ancestor that is reached twice is checked once, and a
request that comes again is answered from the record without sampling.  Within one request a
failed class is reported in full where it is reached first; each further arrival adds one line.

* `visit` : a class and, before it, its parents, with the ledger and the marks of the request;
* `validate` : one request, with fresh marks;
* `register` : a new class, or an error that leaves the registry as it was.
-/
import Lawbook.Class.Hierarchy
import Lawbook.Class.Ledger

namespace Lawbook

variable {σ α : Type}

/-! ### Requests -/

/-- What a request carries from class to class: the state of the host, the ledger, and the classes
it has arrived at. -/
structure Survey (σ : Type) where
  host : σ
  ledger : Ledger
  visited : List ClassId

namespace Survey

/-- Marks a class, and tells whether this is the first arrival. -/
def arrive (id : ClassId) : Run (Survey σ) (Event α) Bool := fun s =>
  if id ∈ s.visited then (false, s, []) else (true, { s with visited := id :: s.visited }, [])

/-- Looks a verdict up. -/
def known (g : GeneratorId) (id : ClassId) : Run (Survey σ) (Event α) (Option Verdict) :=
  fun s => (s.ledger.verdict? g id, s, [])

/-- Writes a verdict down. -/
def record (g : GeneratorId) (id : ClassId) (verdict : Verdict) :
    Run (Survey σ) (Event α) Unit :=
  fun s => ((), { s with ledger := s.ledger.record g id verdict }, [])

/-- A run of the host alone. -/
def onHost {β : Type} (m : Run σ (Event α) β) : Run (Survey σ) (Event α) β :=
  m.within Survey.host fun host s => { s with host }

end Survey

namespace Hierarchy

variable [Inspectable α]

/-- The heading of the failures of parents. -/
def prerequisitesHeading (generator name : String) : String :=
  s!"{generator} fails the prerequisites to be a {name}"

/-- The heading of the failures of a class's own laws. -/
def ownHeading (generator name : String) : String :=
  s!"{generator} does not obey the laws of {name}"

/-- The line for a failed class that is reached again. -/
def againLine (name generator : String) : String :=
  s!"{name} already failed for {generator}"

/-- What a recorded verdict says on arrival: all of it the first time, and one line after that. -/
def recalled (name generator : String) (first : Bool) (verdict : Verdict) : Verdict :=
  if first || verdict.isSuccess then verdict else Verdict.fail (againLine name generator)

/-- Checks the own laws of a class. -/
def checkOwn (g : Generator σ α) (c : Config) (id : ClassId) (cls : Class σ α) :
    Run σ (Event α) Verdict := do
  return (← cls.checkLaws id g c).under (ownHeading g.name cls.name)

/-- Validates the class `id` and its ancestors, for a number below the bound. -/
def visit (h : Hierarchy σ α) (g : Generator σ α) (c : Config) :
    Nat → ClassId → Run (Survey σ) (Event α) Verdict
  | 0, id => return Verdict.fail (ClassError.unknownClass id).message
  | bound + 1, id => do
    Run.emit (.reached id)
    match h.class? id with
    | none => return Verdict.fail (ClassError.unknownClass id).message
    | some cls =>
      let first ← Survey.arrive id
      -- what is recorded is neither sampled nor recorded again
      match ← Survey.known g.id id with
      | some verdict =>
        Run.emit (.logged (.recordFound cls.name g.name))
        return recalled cls.name g.name first verdict
      | none =>
        -- parents come first, and the own laws are checked whatever they say
        let inherited ← cls.parents.mapM (visit h g c bound)
        let prerequisites :=
          (Verdict.all inherited).under (prerequisitesHeading g.name cls.name)
        let own ← Survey.onHost (checkOwn g c id cls)
        let verdict := prerequisites.both own
        Survey.record g.id id verdict
        return verdict

end Hierarchy

/-! ### Registries -/

/-- Classes and the verdicts on them. -/
structure Registry (σ α : Type) where
  hierarchy : Hierarchy σ α
  ledger : Ledger

namespace Registry

/-- The registry without classes and verdicts. -/
def empty : Registry σ α := ⟨.empty, .empty⟩

instance : Inhabited (Registry σ α) := ⟨empty⟩

/-- Adds the class of a draft.  With a parent that is not there, nothing is added. -/
def register (r : Registry σ α) (d : Draft σ α) :
    Run σ (Event α) (Except ClassError ClassId × Registry σ α) :=
  match r.hierarchy.register d with
  | .error e => return (.error e, r)
  | .ok hierarchy => do
    let id := r.hierarchy.nextId
    let cls := d.toClass
    Run.emit (.logged (.classRegistered cls.name id cls.parents.length cls.laws.lawCount))
    return (.ok id, { r with hierarchy })

/-- The notice at the end of a request. -/
def closing (r : Registry σ α) (id : ClassId) (g : Generator σ α) (verdict : Verdict) : Notice :=
  if verdict.isSuccess then .classHolds g.name (r.hierarchy.nameOf id)
  else .classFails g.name (r.hierarchy.nameOf id)

/-- Validates a class and its ancestors against a generator. -/
def validate [Inspectable α] (r : Registry σ α) (id : ClassId) (g : Generator σ α) (c : Config) :
    Run σ (Event α) (Verdict × Registry σ α) := fun s =>
  match r.hierarchy.visit g c (id.index + 1) id ⟨s, r.ledger, []⟩ with
  | (verdict, survey, es) =>
    ((verdict, { r with ledger := survey.ledger }), survey.host,
      es ++ [.logged (r.closing id g verdict)])

/-- A registry under inspection, where `label` writes the identifiers of generators. -/
def inspect (label : GeneratorId → String) (r : Registry σ α) : String :=
  let classes := r.hierarchy.classes.toList.zipIdx.map fun entry => entry.1.inspect ⟨entry.2⟩
  Inspect.record "ClassRegistry"
    [("classes", Inspect.list classes), ("cache", r.ledger.inspect label)]

end Registry

end Lawbook
