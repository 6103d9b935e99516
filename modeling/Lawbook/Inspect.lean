/-
Lawbook/Inspect.lean

The inspection text of structured values: constructors with named or positioned fields, lists and
maps, on one line.

Every part is given as its own inspection text.  A constructor without fields is its name alone; a
constructor without a name and with one field has a comma behind the field, so that it differs
from a field in brackets.
-/

namespace Lawbook

/-- Values that have an inspection text. -/
class Inspectable (α : Type) where
  inspect : α → String

end Lawbook

namespace Lawbook.Inspect

/-- Parts in a row, separated by commas. -/
def row (parts : List String) : String :=
  ", ".intercalate parts

/-- A constructor with named fields. -/
def record (name : String) (fields : List (String × String)) : String :=
  if fields.isEmpty then name
  else name ++ " \x7b " ++ row (fields.map fun field => field.1 ++ ": " ++ field.2) ++ " \x7d"

/-- A constructor with positioned fields. -/
def tuple (name : String) : List String → String
  | [] => name
  | [field] => if name.isEmpty then "(" ++ field ++ ",)" else name ++ "(" ++ field ++ ")"
  | fields => name ++ "(" ++ row fields ++ ")"

/-- A list. -/
def list (items : List String) : String :=
  "[" ++ row items ++ "]"

/-- A map from keys to values. -/
def map (entries : List (String × String)) : String :=
  "\x7b" ++ row (entries.map fun entry => entry.1 ++ ": " ++ entry.2) ++ "\x7d"

/-- A truth value. -/
def bool (b : Bool) : String :=
  if b then "true" else "false"

/-- A value that may be absent. -/
def option : Option String → String
  | none => "None"
  | some text => tuple "Some" [text]

end Lawbook.Inspect
