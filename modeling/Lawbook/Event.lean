/-
Lawbook/Event.lean

Events: what a run reports while it happens.

Some events are notices for a log, with a level and a message.  The others tell which values were
asked for, which predicates were called on what, and how a validation walks through a hierarchy of
classes; they are not logged.
-/
import Lawbook.Generator
import Lawbook.Verdict

namespace Lawbook

/-- How much a notice matters. -/
inductive Level where
  | trace
  | debug
  | info
  | warn
deriving DecidableEq, Repr

/-- The name of a level. -/
def Level.name : Level → String
  | trace => "TRACE"
  | debug => "DEBUG"
  | info => "INFO"
  | warn => "WARN"

/-- What there is to log. -/
inductive Notice where
  | lawSkipped (law : String)
  | generatorFailed (generator law : String) (error : GeneratorError)
  | lawViolated (law generator : String) (round : Nat)
  | lawHeld (law generator : String) (rounds : Nat)
  | classRegistered (name : String) (id : ClassId) (parents laws : Nat)
  | recordFound (name generator : String)
  | classHolds (generator name : String)
  | classFails (generator name : String)
  | declarationsHold (subject : String)
  | declarationsFail (subject names : String)
  | noCustomization (path : String)
  | defaultSampleSize (rounds : Nat)
deriving DecidableEq, Repr

namespace Notice

/-- The level of a notice. -/
def level : Notice → Level
  | lawSkipped _ => .trace
  | generatorFailed _ _ _ => .warn
  | lawViolated _ _ _ => .warn
  | lawHeld _ _ _ => .debug
  | classRegistered _ _ _ _ => .debug
  | recordFound _ _ => .debug
  | classHolds _ _ => .info
  | classFails _ _ => .info
  | declarationsHold _ => .info
  | declarationsFail _ _ => .warn
  | noCustomization _ => .debug
  | defaultSampleSize _ => .info

/-- The message of a notice. -/
def message : Notice → String
  | lawSkipped law => s!"Skipping law {law}"
  | generatorFailed generator law error =>
    s!"Generator {generator} failed while checking {law}: {error.message}"
  | lawViolated law generator round => s!"Law {law} violated by {generator} in round {round}"
  | lawHeld law generator rounds => s!"Law {law} held for {generator} over {rounds} rounds"
  | classRegistered name id parents laws =>
    s!"Registered class {name} ({id.short}) with {parents} parents and {laws} laws"
  | recordFound name generator => s!"Cache hit for {name} against {generator}"
  | classHolds generator name => s!"{generator} is a valid {name}"
  | classFails generator name => s!"{generator} is not a valid {name}"
  | declarationsHold subject => s!"{subject} satisfies all of its declared classes"
  | declarationsFail subject names => s!"{subject} fails its declared classes ({names})"
  | noCustomization path => s!"No customization at {path}, using base configuration"
  | defaultSampleSize rounds => s!"Default test sample size set to {rounds}"

end Notice

/-- What happens in a run over values of type `α`. -/
inductive Event (α : Type) where
  /-- A generator was asked for the value of a round. -/
  | drew (generator : GeneratorId) (round : Nat)
  /-- The predicate of a law was called. -/
  | judged (law : String) (values : List α)
  /-- A validation arrived at a class. -/
  | reached (id : ClassId)
  /-- The laws of a class itself are about to be checked. -/
  | opened (id : ClassId) (generator : GeneratorId) (skipped : Bool)
  /-- The laws of a class itself were checked, with this verdict. -/
  | closed (id : ClassId) (generator : GeneratorId) (verdict : Verdict)
  /-- A notice was logged. -/
  | logged (notice : Notice)
deriving DecidableEq, Repr

namespace Event

variable {α : Type}

/-- The notice of an event that is logged. -/
def notice? : Event α → Option Notice
  | logged notice => some notice
  | _ => none

/-- Whether a generator was asked for a value. -/
def isDraw : Event α → Bool
  | drew _ _ => true
  | _ => false

/-- The notices among events, in order. -/
def notices (es : List (Event α)) : List Notice :=
  es.filterMap notice?

/-- How often generators were asked for values. -/
def drawCount (es : List (Event α)) : Nat :=
  es.countP isDraw

end Event

end Lawbook
