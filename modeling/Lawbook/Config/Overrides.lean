/-
Lawbook/Config/Overrides.lean

Overrides: settings given as texts under fixed keys, as in the environment of a program.

All overrides that are present are read before any is applied, in a fixed order, so a text that
cannot be read is reported before a sample size that is out of range.

* `readOverrides` : the settings of the texts that are present;
* `withOverrides` : a configuration with those settings applied.
-/
import Lawbook.Config
import Lawbook.Decimal.Literal
import Lawbook.Text.Blank

namespace Lawbook

/-- The keys of overrides. -/
inductive OverrideKey where
  | sampleSize
  | skip
  | seed
deriving DecidableEq, Repr

/-- The name of a key. -/
def OverrideKey.name : OverrideKey → String
  | sampleSize => "TYPECLASS_LAWS_SAMPLE_SIZE"
  | skip => "TYPECLASS_LAWS_SKIP"
  | seed => "TYPECLASS_LAWS_SEED"

/-- How the texts of numbers are read, without blanks around them. -/
structure NumberReaders where
  float? : String → Option Float
  seed? : String → Option UInt64

/-- The usual way of reading numbers. -/
def NumberReaders.standard : NumberReaders where
  float? := Decimal.float?
  seed? s := (Decimal.natural? Decimal.wordLimit s).map UInt64.ofNat

/-- The words for switching something on. -/
def onWords : List String := ["1", "true", "yes", "on"]

/-- The words for switching something off. -/
def offWords : List String := ["0", "false", "no", "off", ""]

/-- The switch that a text stands for, in any case of letters. -/
def switch? (s : String) : Option Bool :=
  let word := String.ofList (s.toList.map Char.toLower)
  if word ∈ onWords then some true else if word ∈ offWords then some false else none

/-- The override at a key: absent, read, or an error with the text as it was given. -/
def readOverride {β : Type} (key : OverrideKey) (read : String → Option β)
    (lookup : String → Option String) : Except ConfigError (Option β) :=
  match lookup key.name with
  | none => .ok none
  | some raw =>
    match read (Text.trim raw) with
    | some b => .ok (some b)
    | none => .error (.invalidOverride key.name raw)

/-- The settings of the overrides that are present. -/
def readOverrides (readers : NumberReaders) (lookup : String → Option String) :
    Except ConfigError Settings := do
  -- in this order, so that the first text that cannot be read is the one reported
  let sampleSize ← readOverride .sampleSize readers.float? lookup
  let skip ← readOverride .skip switch? lookup
  let seed ← readOverride .seed readers.seed? lookup
  return ⟨sampleSize, skip, seed⟩

/-- The configuration with the overrides that are present applied. -/
def Config.withOverrides (readers : NumberReaders) (fresh : Cell)
    (lookup : String → Option String) (c : Config) : Except ConfigError Config := do
  c.apply fresh (← readOverrides readers lookup)

end Lawbook
