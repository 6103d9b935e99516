/-
Lawbook/Generator.lean

Generators: where the sample values of a check come from.

A generator has an identity, a name for reports, and a way to make the value for a round, which
may read and change the state of the host and may fail.  Two generators with one identity count as
one and the same, whatever else they do.
-/
import Lawbook.Identity

namespace Lawbook

/-- Why there is no sample value. -/
inductive GeneratorError where
  /-- There is nothing to choose from. -/
  | emptyValues (name : String)
  /-- The function that builds values did not return. -/
  | failed (name message : String)
deriving DecidableEq, Repr

/-- What a failed generator reports. -/
def GeneratorError.message : GeneratorError → String
  | emptyValues name => s!"Generator {name} has no values to sample from"
  | failed name message => s!"Generator {name} failed: {message}"

/-- A generator of values of type `α` over host states `σ`. -/
structure Generator (σ α : Type) where
  id : GeneratorId
  name : String
  get : Nat → StateM σ (Except GeneratorError α)

end Lawbook
