/-
Lawbook/Decimal/Literal.lean

Reading numbers from text.

A natural number is a run of decimal digits, perhaps after a plus sign.  A floating-point number
is a decimal with an optional fraction and an optional power of ten, or one of the words for
infinity and for no number at all, in any case of letters; it is rounded to the nearest number of
the grid, ties to even.
-/

namespace Lawbook.Decimal

/-! ### Digits -/

/-- The value of a run of decimal digits. -/
def digitsValue (cs : List Char) : Nat :=
  cs.foldl (fun n c => 10 * n + (c.toNat - '0'.toNat)) 0

/-- The run of digits in front, and what follows it. -/
def spanDigits (cs : List Char) : List Char × List Char :=
  (cs.takeWhile Char.isDigit, cs.dropWhile Char.isDigit)

/-! ### Natural numbers -/

/-- A run of digits, at least one, of a value up to `limit`. -/
def unsigned? (limit : Nat) (cs : List Char) : Option Nat :=
  if cs ≠ [] ∧ cs.all Char.isDigit ∧ digitsValue cs ≤ limit then some (digitsValue cs) else none

/-- A natural number up to `limit`, perhaps after a plus sign. -/
def natural? (limit : Nat) (s : String) : Option Nat :=
  match s.toList with
  | '+' :: rest => unsigned? limit rest
  | cs => unsigned? limit cs

/-- Largest number of a word of 64 bits. -/
def wordLimit : Nat := UInt64.size - 1

/-! ### Floating-point numbers -/

/-- The number nearest to that of a run of digits, times `10 ^ e`.  Beyond the range of the grid it
is infinite or zero. -/
def nearest (cs : List Char) (e : Int) : Float :=
  let digits := cs.dropWhile (· == '0')
  let size := digits.length + e
  if digits.isEmpty then 0.0
  else if size > 400 then 1.0 / 0.0
  else if size < -400 then 0.0
  else Float.ofScientific (digitsValue digits) (e < 0) e.natAbs

/-- A power of ten after its mark: an optional sign and at least one digit, to the end. -/
def power? (cs : List Char) : Option Int :=
  let (negative, digits) := match cs with
    | '-' :: rest => (true, rest)
    | '+' :: rest => (false, rest)
    | _ => (false, cs)
  if digits ≠ [] ∧ digits.all Char.isDigit then
    some (if negative then -(digitsValue digits : Int) else digitsValue digits)
  else none

/-- An unsigned decimal: digits, perhaps a point and digits, at least one digit in all, and perhaps
a power of ten. -/
def decimal? (cs : List Char) : Option Float :=
  let (whole, afterWhole) := spanDigits cs
  let (fraction, afterFraction) := match afterWhole with
    | '.' :: rest => spanDigits rest
    | _ => ([], afterWhole)
  if whole.isEmpty && fraction.isEmpty then none
  else
    let digits := whole ++ fraction
    let shift : Int := -(fraction.length : Int)
    match afterFraction with
    | [] => some (nearest digits shift)
    | c :: rest =>
      if c = 'e' || c = 'E' then (power? rest).map fun e => nearest digits (shift + e) else none

/-- An unsigned number: a word for infinity or for no number, or a decimal. -/
def magnitude? (cs : List Char) : Option Float :=
  let word := String.ofList (cs.map Char.toLower)
  if word = "inf" || word = "infinity" then some (1.0 / 0.0)
  else if word = "nan" then some (0.0 / 0.0)
  else decimal? cs

/-- A floating-point number with an optional sign. -/
def float? (s : String) : Option Float :=
  match s.toList with
  | '-' :: rest => (magnitude? rest).map fun x => -x
  | '+' :: rest => magnitude? rest
  | cs => magnitude? cs

end Lawbook.Decimal
