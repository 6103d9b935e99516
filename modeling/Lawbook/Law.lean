/-
Lawbook/Law.lean

Laws: named predicates over a number of sampled values, and the search for a tuple that breaks
one.

A check goes through rounds.  In each it samples as many values as the law has places and calls
the predicate on them.  The first round in which a value is missing or the predicate does not hold
ends the check with a failure that shows the values of that round; when all rounds pass, the law
holds.

* `sample` : the values of one round, cut short by a generator that fails;
* `round` : one round, with the failure it finds;
* `rounds` : the search, which ends at the first failure;
* `check` : the search with the number of rounds of a configuration, unless that says to skip.
-/
import Lawbook.Callback
import Lawbook.Config
import Lawbook.Event
import Lawbook.Run
import Lawbook.Text.Excerpt
import Lawbook.Text.Quoted
import Lawbook.Verdict

namespace Lawbook

variable {σ α : Type}

/-- A named predicate over `arity` sampled values. -/
structure Law (σ α : Type) where
  name : String
  arity : Nat
  predicate : List α → Callback σ Bool

/-! ### Sampling -/

/-- The values sampled for a round: all of them, or those that came before an error. -/
inductive Sample (α : Type) where
  | complete (values : List α)
  | cut (values : List α) (error : GeneratorError)
deriving Repr

namespace Sample

/-- The values that were sampled. -/
def values : Sample α → List α
  | complete values => values
  | cut values _ => values

/-- The sample with one more value in front. -/
def cons (a : α) : Sample α → Sample α
  | complete values => complete (a :: values)
  | cut values error => cut (a :: values) error

end Sample

namespace Generator

/-- Asks for the value of a round. -/
def drawAt (g : Generator σ α) (round : Nat) : Run σ (Event α) (Except GeneratorError α) := do
  Run.emit (.drew g.id round)
  Run.host (g.get round)

/-- Asks `n` times for the value of a round, until an error. -/
def sample (g : Generator σ α) (round : Nat) : Nat → Run σ (Event α) (Sample α)
  | 0 => pure (.complete [])
  | n + 1 => do
    match ← g.drawAt round with
    | .error e => pure (.cut [] e)
    | .ok a => Sample.cons a <$> g.sample round n

end Generator

namespace Law

variable [Inspectable α]

/-! ### One round -/

/-- The failure that shows the values of a round. -/
def counterexample (law : Law σ α) (values : List α) : Verdict :=
  if values.isEmpty then Verdict.fail s!"Predicate {law.name} failed with no params"
  else
    Verdict.fail
      s!"Predicate {law.name} failed with params {Text.listing (values.map Inspectable.inspect)}"

/-- Calls the predicate on the values of a round. -/
def judge (law : Law σ α) (values : List α) : Run σ (Event α) (Except Mishap Bool) := do
  Run.emit (.judged law.name values)
  Run.host (law.predicate values)

/-- What a complete sample shows: nothing if the predicate holds, and otherwise the values, under
what the predicate had to say if it did not return. -/
def finding (law : Law σ α) (values : List α) : Except Mishap Bool → Option Verdict
  | .ok true => none
  | .ok false => some (law.counterexample values)
  | .error mishap => some ((Verdict.fail mishap.full).both (law.counterexample values))

/-- One round of a check. -/
def round (law : Law σ α) (g : Generator σ α) (i : Nat) :
    Run σ (Event α) (Option Verdict) := do
  match ← g.sample i law.arity with
  | .cut values error =>
    Run.emit (.logged (.generatorFailed g.name law.name error))
    return some ((Verdict.fail error.message).both (law.counterexample values))
  | .complete values =>
    match law.finding values (← law.judge values) with
    | none => return none
    | some verdict =>
      Run.emit (.logged (.lawViolated law.name g.name i))
      return some verdict

/-! ### The search -/

/-- The given number of rounds from round `i` on, up to the first that fails. -/
def rounds (law : Law σ α) (g : Generator σ α) :
    Nat → Nat → Run σ (Event α) (Option Verdict)
  | 0, _ => pure none
  | n + 1, i => do
    match ← law.round g i with
    | some verdict => return some verdict
    | none => law.rounds g n (i + 1)

/-- Checks a law against the values of a generator. -/
def check (law : Law σ α) (g : Generator σ α) (c : Config) : Run σ (Event α) Verdict := do
  if c.skip then
    Run.emit (.logged (.lawSkipped law.name))
    return .success
  else
    match ← law.rounds g c.sampleSize 0 with
    | some verdict => return verdict
    | none =>
      Run.emit (.logged (.lawHeld law.name g.name c.sampleSize))
      return .success

end Law

/-- A law under inspection. -/
def Law.inspect (law : Law σ α) : String :=
  Inspect.record "Law" [("name", Text.quoted law.name), ("arity", toString law.arity)]

end Lawbook
