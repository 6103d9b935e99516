/-
Lawbook/Config.lean

The configuration of checks: how many rounds, whether to check at all, and the source of random
numbers.

Every way of setting the number of rounds goes through `roundsOf`, so that the two edge rounds
always run.  Settings are the part of a configuration that can be written down; absent settings
leave what they are applied to unchanged.

* `two_le_of_roundsOf` : a number of rounds that is accepted covers the edge rounds.
-/
import Lawbook.Decimal.Layout
import Lawbook.Inspect
import Lawbook.Random.Source

namespace Lawbook

open Decimal

/-! ### Errors -/

/-- What can be wrong with a configuration. -/
inductive ConfigError where
  | negativeSampleSize (got : Float)
  | nonFiniteSampleSize (got : Float)
  | sampleSizeTooSmall (got : Nat)
  | unsupportedFormat (path : String)
  | unreadable (path reason : String)
  | malformed (path : String)
  | invalidOverride (key value : String)

/-- Rounds 0 and 1 are the edge rounds. -/
def minSampleSize : Nat := 2

/-- What a configuration error says. -/
def ConfigError.message : ConfigError → String
  | negativeSampleSize got => s!"Test sample size cannot be negative (got {spokenText got})."
  | nonFiniteSampleSize got =>
    s!"Test sample size must be a finite number (got {spokenText got})."
  | sampleSizeTooSmall got =>
    s!"Test sample size must be at least {minSampleSize} to cover the edge cases (got {got})."
  | unsupportedFormat path => s!"Unsupported configuration format: {path}"
  | unreadable path reason => s!"Failed to read configuration {path}: {reason}"
  | malformed path => s!"Failed to parse configuration {path}"
  | invalidOverride key value => s!"Invalid value for {key}: {value}"

/-! ### Configurations -/

/-- How checks are carried out. -/
structure Config where
  /-- Rounds per law, the edge rounds included. -/
  sampleSize : Nat
  /-- Whether laws pass without being checked. -/
  skip : Bool
  random : Source

/-- The number of rounds that a given number asks for: its whole part, up to the largest word. -/
def roundsOf (size : Float) : Except ConfigError Nat :=
  if !size.isFinite then .error (.nonFiniteSampleSize size)
  else if size < 0.0 then .error (.negativeSampleSize size)
  else
    let rounds := size.toUInt64.toNat
    if rounds < minSampleSize then .error (.sampleSizeTooSmall rounds) else .ok rounds

/-- A number of rounds that is accepted has place for both edges. -/
theorem two_le_of_roundsOf {size : Float} {rounds : Nat} (h : roundsOf size = .ok rounds) :
    2 ≤ rounds := by
  simp only [roundsOf] at h
  split at h
  · simp at h
  split at h
  · simp at h
  split at h
  · simp at h
  · next hr => simp only [Except.ok.injEq] at h; rw [← h]; exact Nat.le_of_not_lt hr

namespace Config

/-- The configuration when nothing is configured. -/
def initial : Config := ⟨15, false, .ambient⟩

/-- The configuration with another number of rounds. -/
def setSampleSize (size : Float) (c : Config) : Except ConfigError Config :=
  match roundsOf size with
  | .error e => .error e
  | .ok rounds => .ok { c with sampleSize := rounds }

/-- The configuration with checking switched off or on. -/
def setSkip (skip : Bool) (c : Config) : Config := { c with skip }

/-- The configuration with another source of random numbers. -/
def setRandom (random : Source) (c : Config) : Config := { c with random }

end Config

/-! ### Settings -/

/-- The part of a configuration that can be written down. -/
structure Settings where
  sampleSize : Option Float
  skip : Option Bool
  /-- The seed of a random source of its own. -/
  seed : Option UInt64

/-- No settings at all. -/
def Settings.empty : Settings := ⟨none, none, none⟩

namespace Config

/-- Applies the settings that are present.  A seed makes a new source, whose position is kept in
the cell `fresh`. -/
def apply (fresh : Cell) (settings : Settings) (c : Config) : Except ConfigError Config := do
  let c ← match settings.sampleSize with
    | some size => c.setSampleSize size
    | none => .ok c
  let c := match settings.skip with
    | some skip => c.setSkip skip
    | none => c
  return match settings.seed with
    | some seed => c.setRandom (.seeded seed fresh)
    | none => c

/-- The configuration that settings describe. -/
def ofSettings (fresh : Cell) (settings : Settings) : Except ConfigError Config :=
  initial.apply fresh settings

end Config

/-! ### Inspection -/

/-- A source under inspection: only its kind shows. -/
def Source.inspect (source : Source) : String :=
  Inspect.record "RandomSource" [("kind", "\"" ++ source.kind ++ "\"")]

/-- A configuration under inspection. -/
def Config.inspect (c : Config) : String :=
  Inspect.record "ValidationConfig"
    [("sample_size", toString c.sampleSize), ("skip_validations", Inspect.bool c.skip),
     ("random", c.random.inspect)]

/-- Settings under inspection. -/
def Settings.inspect (s : Settings) : String :=
  Inspect.record "ValidationSettings"
    [("sample_size", Inspect.option (s.sampleSize.map exactText)),
     ("skip_validations", Inspect.option (s.skip.map Inspect.bool)),
     ("seed", Inspect.option (s.seed.map toString))]

end Lawbook
