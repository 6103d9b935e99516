/-
Lawbook/Coding.lean

The form of verdicts, identities, declarations and settings in documents.

Writing produces one form of each value.  Reading accepts some more: a success as an entry with
nothing in it, declarations and settings as lists of their fields in order, and fields that are
not known where an object is expected.
-/
import Lawbook.Config
import Lawbook.Document
import Lawbook.Identity.Uuid
import Lawbook.Instance

namespace Lawbook

/-! ### Parts of documents -/

namespace Document

/-- A truth value. -/
def bool? : Document → Option Bool
  | bool b => some b
  | _ => none

/-- A number, rounded to a floating-point number. -/
def float? : Document → Option Float
  | number n => some n.toFloat
  | _ => none

/-- A whole number that is not negative. -/
def natural? : Document → Option Nat
  | number (.whole i) => if 0 ≤ i then some i.toNat else none
  | _ => none

/-- A value that may be null, as no value at all. -/
def optional? {β : Type} (read : Document → Option β) : Document → Option (Option β)
  | null => some none
  | d => (read d).map some

/-- A natural number. -/
def ofNat (n : Nat) : Document :=
  number (.whole n)

/-- A value that may be absent. -/
def ofOption {β : Type} (write : β → Document) : Option β → Document
  | none => null
  | some b => write b

end Document

/-! ### Verdicts -/

namespace Verdict

/-- A verdict as a document. -/
def toDocument : Verdict → Document
  | success => .text "Success"
  | failure report => .object [("Failure", .text report)]

/-- The verdict of a document. -/
def ofDocument? : Document → Option Verdict
  | .text "Success" => some success
  | .object [("Success", .null)] => some success
  | .object [("Failure", .text report)] => some (failure report)
  | _ => none

/-- A verdict that is written as a document is read back as it was. -/
theorem ofDocument?_toDocument (v : Verdict) : ofDocument? v.toDocument = some v := by
  cases v <;> rfl

end Verdict

/-! ### Identities -/

namespace ClassId

/-- A class as a document. -/
def toDocument (id : ClassId) : Document :=
  .ofNat id.index

/-- The class of a document. -/
def ofDocument? (d : Document) : Option ClassId :=
  d.natural?.map ClassId.mk

theorem ofDocument?_toDocument (id : ClassId) : ofDocument? id.toDocument = some id := by
  simp [ofDocument?, toDocument, Document.ofNat, Document.natural?]

end ClassId

namespace GeneratorId

/-- A generator's identity as a document. -/
def toDocument (id : GeneratorId) : Document :=
  .text id.text

/-- The generator's identity of a document. -/
def ofDocument? : Document → Option GeneratorId
  | .text s => ofText? s
  | _ => none

end GeneratorId

/-! ### Declarations -/

namespace Membership

/-- Declared classes as a document. -/
def toDocument (m : Membership) : Document :=
  .object [("classes", .list (m.classes.map ClassId.toDocument)), ("validated", .bool m.validated)]

/-- The declared classes of a list of them. -/
def classesOf? : Document → Option (List ClassId)
  | .list items => items.mapM ClassId.ofDocument?
  | _ => none

/-- The declared classes of a document.  Both fields must be there. -/
def ofDocument? : Document → Option Membership
  | .object entries => do
    return ⟨← classesOf? (← Document.lookup "classes" entries),
      ← (← Document.lookup "validated" entries).bool?⟩
  | .list [classes, validated] => do return ⟨← classesOf? classes, ← validated.bool?⟩
  | _ => none

end Membership

/-! ### Settings -/

namespace Settings

/-- The names of the fields, in order. -/
def fieldNames : List String := ["sample_size", "skip_validations", "seed"]

/-- Settings as a document. -/
def toDocument (s : Settings) : Document :=
  .object
    [("sample_size", .ofOption (fun x => .number (.real x)) s.sampleSize),
     ("skip_validations", .ofOption .bool s.skip),
     ("seed", .ofOption (fun n => .ofNat n.toNat) s.seed)]

/-- The seed of a document. -/
def seed? (d : Document) : Option UInt64 := do
  let n ← d.natural?
  if n < UInt64.size then return .ofNat n else none

/-- The settings of three values, each of which may be null. -/
def ofFields? (sampleSize skip seed : Document) : Option Settings := do
  return ⟨← sampleSize.optional? Document.float?, ← skip.optional? Document.bool?,
    ← seed.optional? seed?⟩

/-- The settings of a document: an object with any of the fields, or a list of the first of
them. -/
def ofDocument? : Document → Option Settings
  | .object entries =>
    let field (name : String) : Document := (Document.lookup name entries).getD .null
    ofFields? (field "sample_size") (field "skip_validations") (field "seed")
  | .list [] => some empty
  | .list [a] => ofFields? a .null .null
  | .list [a, b] => ofFields? a b .null
  | .list [a, b, c] => ofFields? a b c
  | _ => none

end Settings

end Lawbook
