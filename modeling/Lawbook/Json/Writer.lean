/-
Lawbook/Json/Writer.lean

Writing JSON documents, without spaces.

Numbers are written with the fewest digits that read back, of two equally near decimals the one
with an even last digit, positionally up to sixteen digits before the point and four zeros behind
it, and elsewhere with a power of ten that has a sign; what is no number is written as null.  In
text, the quote, the backslash and the controls are escaped.
-/
import Lawbook.Decimal.Layout
import Lawbook.Document

namespace Lawbook.Json

open Decimal

/-- The layout of numbers. -/
def layout : Layout := ⟨some (-4, 16), ".0", "+", .even⟩

/-- The text of a number. -/
def numeralText : Numeral → String
  | .whole i => toString i
  | .real x => if x.isFinite then layout.text x else "null"

/-- A number of four hexadecimal digits. -/
def hexWord (n : Nat) : List Char :=
  let digits := Nat.toDigits 16 n
  zeros (4 - digits.length) ++ digits

/-- How one character is written in text. -/
def escaped (c : Char) : List Char :=
  if c = '"' then ['\\', '"']
  else if c = '\\' then ['\\', '\\']
  else if c = '\n' then ['\\', 'n']
  else if c = '\r' then ['\\', 'r']
  else if c = '\t' then ['\\', 't']
  else if c = '\x08' then ['\\', 'b']
  else if c = '\x0c' then ['\\', 'f']
  else if c.toNat < 0x20 then '\\' :: 'u' :: hexWord c.toNat
  else [c]

/-- A text between quotes. -/
def textLiteral (s : String) : String :=
  String.ofList ('"' :: (s.toList.flatMap escaped ++ ['"']))

mutual

/-- A document as text. -/
def write : Document → String
  | .null => "null"
  | .bool b => if b then "true" else "false"
  | .number n => numeralText n
  | .text s => textLiteral s
  | .list items => "[" ++ ",".intercalate (writeItems items) ++ "]"
  | .object entries => "\x7b" ++ ",".intercalate (writeEntries entries) ++ "\x7d"

/-- Several documents as texts. -/
def writeItems : List Document → List String
  | [] => []
  | item :: items => write item :: writeItems items

/-- Several entries as texts. -/
def writeEntries : List (String × Document) → List String
  | [] => []
  | (key, value) :: entries => (textLiteral key ++ ":" ++ write value) :: writeEntries entries

end

end Lawbook.Json
