/-
Lawbook/Config/File.lean

Configurations in files, in JSON or YAML by the extension of the file.

A file of customizations may lie over the base file: its entries take the place of those of the
base, one by one.  A file is read before its extension is looked at, and what cannot be read as
settings once the two lie over each other is reported with the path of the base.

* `load` : the configuration of one file;
* `loadCustomized` : the configuration of a base and its customizations, if there are any.
-/
import Lawbook.Coding
import Lawbook.Event

namespace Lawbook

/-! ### Files -/

/-- The files that can be read. -/
structure FileSystem where
  /-- The text of a file, or why there is none. -/
  read : String → Except String String
  isThere : String → Bool

/-- How documents are read from texts. -/
structure Formats where
  json? : String → Option Document
  yaml? : String → Option Document

/-- The parts of a text between separators. -/
def partsAt (separator : Char) (s : String) : List String :=
  (s.toList.splitOn separator).map String.ofList

/-- The name at the end of a path, without regard to slashes and single dots behind it. -/
def fileName? (path : String) : Option String :=
  let parts := (partsAt '/' path).filter fun part => part ≠ "" && part ≠ "."
  match parts.getLast? with
  | none => none
  | some part => if part = ".." then none else some part

/-- What follows the last dot of a file name, unless that dot is its first character. -/
def extension? (path : String) : Option String := do
  let name ← fileName? path
  let parts := partsAt '.' name
  match parts with
  | [] => none
  | [_] => none
  -- a name that starts with its only dot is all name
  | ["", _] => none
  | _ => parts.getLast?

/-- The reader for the format of a path. -/
def Formats.reader? (formats : Formats) (path : String) : Option (String → Option Document) :=
  match extension? path with
  | some "json" => some formats.json?
  | some "yaml" => some formats.yaml?
  | some "yml" => some formats.yaml?
  | _ => none

/-! ### Loading -/

/-- The document in a file. -/
def loadDocument (formats : Formats) (files : FileSystem) (path : String) :
    Except ConfigError Document :=
  match files.read path with
  | .error reason => .error (.unreadable path reason)
  | .ok content =>
    match formats.reader? path with
    | none => .error (.unsupportedFormat path)
    | some read =>
      match read content with
      | none => .error (.malformed path)
      | some d => .ok d

/-- The settings of a document from the file at `path`. -/
def settingsFrom (path : String) (d : Document) : Except ConfigError Settings :=
  match Settings.ofDocument? d with
  | none => .error (.malformed path)
  | some settings => .ok settings

namespace Config

/-- The configuration in a file. -/
def load (formats : Formats) (files : FileSystem) (fresh : Cell) (path : String) :
    Except ConfigError Config := do
  ofSettings fresh (← settingsFrom path (← loadDocument formats files path))

/-- The configuration in a file with customizations laid over it. -/
def loadOverlaid (formats : Formats) (files : FileSystem) (fresh : Cell) (base custom : String) :
    Except ConfigError Config := do
  let lower ← loadDocument formats files base
  let upper ← loadDocument formats files custom
  ofSettings fresh (← settingsFrom base (lower.overlay upper))

/-- The configuration in a file, with the customizations of another file if that exists.  Without
them there is a notice, unless the base cannot be read. -/
def loadCustomized (formats : Formats) (files : FileSystem) (fresh : Cell)
    (base custom : String) : Except ConfigError Config × List Notice :=
  if files.isThere custom then (loadOverlaid formats files fresh base custom, [])
  else
    (load formats files fresh base,
      match loadDocument formats files base with
      | .ok _ => [.noCustomization custom]
      | .error _ => [])

end Config

end Lawbook
