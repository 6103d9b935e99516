/-
Lawbook/Json/Numeral.lean

Numbers in JSON.

A number without fraction and power that fits a word of 64 bits is whole; every other one is a
floating-point number.  Its digits are read into a word as far as they fit, the others only move
the point, and the word is then scaled by a power of ten in floating point.  A number beyond the
range of floating-point numbers is no number; one too small is zero.  There is no whole negative
zero.
-/
import Lawbook.Decimal.Literal
import Lawbook.Document

namespace Lawbook.Json

open Decimal

/-! ### Scaling -/

/-- The largest power of ten in the range of floating-point numbers. -/
def maxPower : Nat := 308

/-- The power of ten nearest to `10 ^ n`. -/
def powerOfTen (n : Nat) : Float :=
  Float.ofScientific 1 false n

/-- The number `x * 10 ^ e`, if it is in range. -/
def scale (x : Float) (e : Int) : Option Float :=
  if x == 0.0 then some x
  -- a power out of reach is taken in two steps
  else if e < -maxPower then scale (x / powerOfTen maxPower) (e + maxPower)
  else if e < 0 then some (x / powerOfTen e.natAbs)
  else if maxPower < e then none
  else
    let y := x * powerOfTen e.natAbs
    if y.isInf then none else some y
termination_by e.natAbs
decreasing_by simp only [maxPower] at *; omega

/-! ### Significands -/

/-- A word and the power of ten that it counts. -/
structure Significand where
  word : Nat
  power : Int
deriving Repr, DecidableEq

namespace Significand

/-- The value of a digit. -/
def digit (c : Char) : Nat := c.toNat - '0'.toNat

/-- Takes the digits before the point: into the word while it has room, and then by moving the
point. -/
def takeWhole (s : Significand) : List Char → Significand
  | [] => s
  | c :: cs =>
    let word := 10 * s.word + digit c
    if s.power = 0 ∧ word ≤ wordLimit then takeWhole { s with word } cs
    -- once a digit had no room, all that follow only move the point
    else takeWhole { s with power := s.power + 1 } cs

/-- Takes the digits behind the point, up to the first for which the word has no room. -/
def takeFraction (s : Significand) : List Char → Significand
  | [] => s
  | c :: cs =>
    let word := 10 * s.word + digit c
    if word ≤ wordLimit then takeFraction ⟨word, s.power - 1⟩ cs else s

end Significand

/-! ### Numbers -/

/-- The parts of a number. -/
structure Parts where
  negative : Bool
  whole : List Char
  fraction : Option (List Char)
  power : Option Int
deriving Repr, DecidableEq

/-- An optional fraction: a point and at least one digit. -/
def fraction? : List Char → Option (Option (List Char) × List Char)
  | '.' :: cs =>
    let (digits, rest) := spanDigits cs
    if digits.isEmpty then none else some (some digits, rest)
  | cs => some (none, cs)

/-- An optional power of ten, to the end. -/
def exponent? : List Char → Option (Option Int)
  | [] => some none
  | c :: cs => if c = 'e' ∨ c = 'E' then (power? cs).map some else none

/-- Splits a number into its parts.  Only zero starts with a zero. -/
def parts? (cs : List Char) : Option Parts := do
  let (negative, unsigned) := match cs with
    | '-' :: rest => (true, rest)
    | _ => (false, cs)
  let (whole, rest) := spanDigits unsigned
  if whole = [] ∨ (whole.head? = some '0' ∧ whole ≠ ['0']) then none
  else
    let (fraction, rest) ← fraction? rest
    let power ← exponent? rest
    return ⟨negative, whole, fraction, power⟩

/-- The word of the digits before the point. -/
def Parts.significand (p : Parts) : Significand :=
  Significand.takeWhole ⟨0, 0⟩ p.whole

/-- The floating-point number of the given parts. -/
def Parts.toReal? (p : Parts) : Option Float := do
  let s := p.significand.takeFraction (p.fraction.getD [])
  let x ← scale (Float.ofNat s.word) (s.power + p.power.getD 0)
  return if p.negative then -x else x

/-- The number of the given parts. -/
def Parts.toNumeral? (p : Parts) : Option Numeral :=
  let s := p.significand
  -- a whole number has room for all of its digits in the word
  let isWhole := p.fraction.isNone && p.power.isNone && s.power = 0
  if isWhole ∧ p.negative = false then some (.whole s.word)
  else if isWhole ∧ 0 < s.word ∧ s.word ≤ UInt64.size / 2 then some (.whole (-s.word))
  else p.toReal?.map .real

/-- Reads a number. -/
def numeral? (cs : List Char) : Option Numeral := do
  (← parts? cs).toNumeral?

end Lawbook.Json
