/-
Lawbook/Config/Shared.lean

The configuration that a whole program shares by default.

Checks never look at it: they are given a configuration.  A program keeps one for what nobody
configured, and changes it here; a change that is refused leaves it as it was.
-/
import Lawbook.Config
import Lawbook.Event
import Lawbook.Run

namespace Lawbook

/-- A change to the shared configuration. -/
abbrev SharedConfig (α β : Type) : Type := Run Config (Event α) β

namespace SharedConfig

variable {α : Type}

/-- The shared configuration as it is. -/
def current : SharedConfig α Config := fun c => (c, c, [])

/-- Puts another configuration in its place. -/
def replace (new : Config) : SharedConfig α Unit := fun _ => ((), new, [])

/-- Puts the initial configuration in its place. -/
def reset : SharedConfig α Unit := replace .initial

/-- Sets the number of rounds, and yields what was stored. -/
def setSampleSize (size : Float) : SharedConfig α (Except ConfigError Nat) := fun c =>
  match roundsOf size with
  | .error e => (.error e, c, [])
  | .ok rounds =>
    (.ok rounds, { c with sampleSize := rounds }, [.logged (.defaultSampleSize rounds)])

/-- Switches checking off or on. -/
def setSkip (skip : Bool) : SharedConfig α Unit := fun c => ((), c.setSkip skip, [])

/-- Sets the source of random numbers. -/
def setRandom (random : Source) : SharedConfig α Unit := fun c => ((), c.setRandom random, [])

end SharedConfig

end Lawbook
