/-
Lawbook/Yaml/Scalar.lean

What plain scalars of YAML stand for: null, truth values and numbers of the core schema, and text.

Whole numbers are decimal, or hexadecimal, octal or binary behind `0x`, `0o` and `0b`; a decimal
number with a superfluous zero in front is text.  Whole numbers beyond a word of 64 bits are
refused, up to 128 bits, beyond which they are floating-point numbers.  Infinity and what is no
number have no place in documents and become null.
-/
import Lawbook.Decimal.Literal
import Lawbook.Document
import Lawbook.Json.Token

namespace Lawbook.Yaml

open Decimal

/-! ### Whole numbers -/

/-- The value of digits of a base, at least one. -/
def baseValue? (base : Nat) (cs : List Char) : Option Nat :=
  if cs.isEmpty then none
  else
    cs.foldlM (fun n c => do
      let d ← Json.hexDigit? c
      if d < base then some (base * n + d) else none) 0

/-- The value of digits behind a mark for their base. -/
def markedValue? : List Char → Option Nat
  | '0' :: 'x' :: cs => baseValue? 16 cs
  | '0' :: 'o' :: cs => baseValue? 8 cs
  | '0' :: 'b' :: cs => baseValue? 2 cs
  | _ => none

/-- Whether decimal digits start with a superfluous zero. -/
def isPadded (cs : List Char) : Bool :=
  match cs with
  | '0' :: c :: rest => (c :: rest).all Char.isDigit
  | _ => false

/-- The value of an unsigned whole number. -/
def unsignedValue? (cs : List Char) : Option Nat :=
  match markedValue? cs with
  | some n => some n
  | none => if isPadded cs then none else baseValue? 10 cs

/-- A whole number with an optional sign. -/
def whole? : List Char → Option Int
  | '-' :: cs => (unsignedValue? cs).map fun n => -(n : Int)
  | '+' :: cs => (unsignedValue? cs).map fun n => (n : Int)
  | cs => (unsignedValue? cs).map fun n => (n : Int)

/-- Whether a whole number fits a signed or an unsigned word of the given number of bits. -/
def fits (bits : Nat) (i : Int) : Bool :=
  -((1 <<< (bits - 1) : Nat) : Int) ≤ i && i < ((1 <<< bits : Nat) : Int)

/-! ### Floating-point numbers -/

/-- The words for infinity, with their signs, and for what is no number. -/
def infinityWords : List String :=
  [".inf", ".Inf", ".INF", "+.inf", "+.Inf", "+.INF", "-.inf", "-.Inf", "-.INF",
   ".nan", ".NaN", ".NAN"]

/-- The characters behind a sign. -/
def unsigned : List Char → List Char
  | '-' :: cs => cs
  | '+' :: cs => cs
  | cs => cs

/-- A finite floating-point number with an optional sign. -/
def real? (s : String) : Option Float := do
  let x ← float? s
  if isPadded (unsigned s.toList) || !x.isFinite then none else some x

/-! ### Scalars -/

/-- The words for null. -/
def nullWords : List String := ["", "~", "null", "Null", "NULL"]

/-- The words for true. -/
def trueWords : List String := ["true", "True", "TRUE"]

/-- The words for false. -/
def falseWords : List String := ["false", "False", "FALSE"]

/-- The value of a plain scalar. -/
def plainValue? (s : String) : Option Document :=
  if s ∈ nullWords || s ∈ infinityWords then some .null
  else if s ∈ trueWords then some (.bool true)
  else if s ∈ falseWords then some (.bool false)
  else
    match whole? s.toList with
    | some i =>
      -- between the two widths a number is neither whole nor rounded
      if fits 64 i then some (.number (.whole i))
      else if fits 128 i then none
      else some (((real? s).map fun x => .number (.real x)).getD (.text s))
    | none => some (((real? s).map fun x => .number (.real x)).getD (.text s))

end Lawbook.Yaml
