/-
Lawbook/Document.lean

Documents: the values that structured text files hold.

A number is whole, within the range of a signed or an unsigned word of 64 bits, or it is a
floating-point number.  An object is a list of entries, of which every key has one; entries keep
the order in which their keys were first given.

* `overlay` : a document laid over another one, entry by entry where both are objects;
* `lookup_assign` : assigning an entry changes what is found at its key, and nothing else.
-/

namespace Lawbook

/-- A number in a document. -/
inductive Numeral where
  | whole (i : Int)
  | real (x : Float)

/-- The number as a floating-point number, rounded to the nearest. -/
def Numeral.toFloat : Numeral → Float
  | whole i => Float.ofInt i
  | real x => x

/-- A value in a structured text. -/
inductive Document where
  | null
  | bool (b : Bool)
  | number (n : Numeral)
  | text (s : String)
  | list (items : List Document)
  | object (entries : List (String × Document))

namespace Document

instance : Inhabited Document := ⟨null⟩

/-! ### Entries -/

/-- The value at a key. -/
def lookup (key : String) : List (String × Document) → Option Document
  | [] => none
  | (other, value) :: rest => if other = key then some value else lookup key rest

/-- Entries with a value at a key, in place of the value that was there. -/
def assign (key : String) (value : Document) :
    List (String × Document) → List (String × Document)
  | [] => [(key, value)]
  | (other, old) :: rest =>
    if other = key then (other, value) :: rest else (other, old) :: assign key value rest

/-- An entry that is assigned is what is found under its key, and the others stay. -/
theorem lookup_assign (key other : String) (value : Document)
    (entries : List (String × Document)) :
    lookup other (assign key value entries) =
      if key = other then some value else lookup other entries := by
  induction entries with
  | nil => simp [assign, lookup]
  | cons entry rest ih =>
    obtain ⟨k, old⟩ := entry
    rw [assign]
    split
    · next hk => subst hk; by_cases h : k = other <;> simp [lookup, h]
    · next hk =>
      by_cases h : k = other
      · have : ¬ key = other := fun e => hk (h.trans e.symm)
        simp [lookup, h, this]
      · simpa [lookup, h] using ih

/-- The value at a key of an object. -/
def get? (key : String) : Document → Option Document
  | object entries => lookup key entries
  | _ => none

/-! ### Overlays -/

mutual

/-- The document `upper` laid over `base`: objects are laid over objects entry by entry, and
anything else replaces what it is laid over. -/
def overlay (base : Document) : Document → Document
  | object entries =>
    match base with
    | object under => object (overlayEntries under entries)
    | _ => object entries
  | upper => upper

/-- Entries laid over entries.  A key that is new starts from nothing. -/
def overlayEntries (under : List (String × Document)) :
    List (String × Document) → List (String × Document)
  | [] => under
  | (key, value) :: rest =>
    overlayEntries (assign key (((lookup key under).getD null).overlay value) under) rest

end

end Document

end Lawbook
