/-
Lawbook/Scenario/Folder.lean

Folders: the files of a scenario, with the errors that reading them can give.

Paths are relative to the folder.  A path is followed part by part from the folder on: every part
but the last has to lead to a directory, and so does the last one if a slash stands behind it.
What cannot be read is told apart as absent, as a directory, as something below a file, as a file
whose bytes are no text, or by a name that no file can have.  Beyond the folder there are the
directories around it, and nothing else is known.
-/
import Lawbook.Config.File

namespace Lawbook.Scenario

/-- What is at a path. -/
inductive Entry where
  /-- A file with its text, if its bytes are one. -/
  | file (content : Option String)
  | directory

/-- The entries of a folder by the parts of their paths; the last entry for a path counts. -/
structure Folder where
  entries : List (List String × Entry)

namespace Folder

/-- Whether a part of a path leads to where it stands. -/
def staysHere (part : String) : Bool :=
  part = "" || part = "."

/-- The parts of the path of an entry. -/
def parts (path : String) : List String :=
  (partsAt '/' path).filter fun part => !staysHere part

/-- The folder with one more entry, last of all. -/
def add (f : Folder) (path : String) (e : Entry) : Folder :=
  ⟨(parts path, e) :: f.entries⟩

/-- What is at the given parts of a path.  Whatever has an entry below it is a directory. -/
def at? (f : Folder) (path : List String) : Option Entry :=
  match f.entries.find? fun entry => entry.1 = path with
  | some entry => some entry.2
  | none =>
    if path.isEmpty || f.entries.any fun entry => path.isPrefixOf entry.1 then some .directory
    else none

/-- What is said of a path where there is nothing. -/
def absent : String := "No such file or directory (os error 2)"

/-- What is said of a directory that is read. -/
def isDirectory : String := "Is a directory (os error 21)"

/-- What is said of a path that leads through a file. -/
def notDirectory : String := "Not a directory (os error 20)"

/-- What is said of bytes that are no text. -/
def notText : String := "stream did not contain valid UTF-8"

/-- What is said of a path that is too long, or has a part that is. -/
def tooLong : String := "File name too long (os error 36)"

/-- What is said of a path with a null character. -/
def hasNull : String := "file name contained an unexpected NUL byte"

/-- The most bytes of a part of a path. -/
def maxPartSize : Nat := 255

/-- The most bytes of a path. -/
def maxPathSize : Nat := 4095

/-- What is at the end of the remaining parts of a path that led out of the folder. -/
def beyond : List String → Except String Entry
  | [] => .ok .directory
  | part :: rest =>
    if staysHere part || part = ".." then beyond rest
    else if maxPartSize < part.utf8ByteSize then .error tooLong
    else .error absent

/-- What is at the end of the remaining parts of a path, from the directory or the file at `here`
on. -/
def walk (f : Folder) (here : List String) : List String → Except String Entry
  | [] =>
    match f.at? here with
    | some e => .ok e
    | none => .error absent
  | part :: rest =>
    match f.at? here with
    | none => .error absent
    -- nothing is below a file, not even the file itself
    | some (.file _) => .error notDirectory
    | some .directory =>
      if staysHere part then f.walk here rest
      else if part = ".." then if here.isEmpty then beyond rest else f.walk here.dropLast rest
      else if maxPartSize < part.utf8ByteSize then .error tooLong
      else f.walk (here ++ [part]) rest

/-- What is at a path.  One that starts with a slash does not start in the folder. -/
def locate (f : Folder) (path : String) : Except String Entry :=
  let parts := partsAt '/' path
  if path.toList.contains '\x00' then .error hasNull
  else if path.isEmpty then .error absent
  else if maxPathSize < path.utf8ByteSize then .error tooLong
  else if path.startsWith "/" then beyond parts
  else f.walk [] parts

/-- Reads the file at a path. -/
def read (f : Folder) (path : String) : Except String String := do
  match ← f.locate path with
  | .file (some s) => .ok s
  | .file none => .error notText
  | .directory => .error isDirectory

/-- Whether there is anything at a path. -/
def isThere (f : Folder) (path : String) : Bool :=
  (f.locate path).isOk

/-- The files of a folder. -/
def toFileSystem (f : Folder) : FileSystem :=
  ⟨f.read, f.isThere⟩

end Folder

end Lawbook.Scenario
