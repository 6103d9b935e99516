/-
Lawbook/Decimal/Shortest.lean

The shortest decimal that reads back as a given number.

A number of the floating-point grid is what every real of an interval around it rounds to.  For
one digit, two digits and so on, the two neighbours of the number on the decimal grid of that many
digits are tested against the interval in exact arithmetic.  The first grid with a neighbour
inside wins; of two neighbours inside, the nearer one.  Seventeen digits always suffice.

Which neighbour is taken when both are equally near is left to the caller: the upper one, or the
one with an even last digit.
-/
import Lawbook.Decimal.Binary

namespace Lawbook.Decimal

/-! ### Decimal grids -/

/-- A length on a decimal grid, as a fraction of its step. -/
structure Length where
  num : Nat
  den : Nat
deriving DecidableEq, Repr

/-- A quarter of the unit of `b` on the decimal grid of step `10 ^ e`, which is
`2 ^ (b.exponent - 2) / 10 ^ e`. -/
def Binary.quarter (b : Binary) (e : Int) : Length :=
  ⟨Nat.pow 2 (b.exponent - 2).toNat * Nat.pow 10 (-e).toNat,
    Nat.pow 2 (2 - b.exponent).toNat * Nat.pow 10 e.toNat⟩

/-- Whether the number `d` of a grid rounds to `b`, with the length of a quarter of its unit there.
The ends of the interval belong to it exactly if the significand is even. -/
def Binary.roundsFrom (b : Binary) (quarter : Length) (d : Nat) : Bool :=
  let low := (4 * b.significand - if b.narrowBelow then 1 else 2) * quarter.num
  let high := (4 * b.significand + 2) * quarter.num
  let point := d * quarter.den
  if b.significand % 2 = 0 then low ≤ point && point ≤ high else low < point && point < high

/-- Which of two neighbours at the same distance is taken. -/
inductive Tie where
  | upper
  | even
deriving DecidableEq, Repr

/-- The number of the two, `below` and the next one, that is taken on a tie. -/
def Tie.choose (tie : Tie) (below : Nat) : Nat :=
  match tie with
  | upper => below + 1
  | even => if below % 2 = 0 then below else below + 1

/-- The neighbour of `b` on the grid of step `10 ^ e` that rounds to `b`, and the nearer one if
there are two. -/
def Binary.onGrid? (b : Binary) (tie : Tie) (e : Int) : Option Nat :=
  let quarter := b.quarter e
  let number := 4 * b.significand * quarter.num
  let below := number / quarter.den
  match b.roundsFrom quarter below, b.roundsFrom quarter (below + 1) with
  | true, true =>
    -- twice the number is compared with the sum of its neighbours
    let middle := (2 * below + 1) * quarter.den
    if 2 * number < middle then some below
    else if middle < 2 * number then some (below + 1)
    else some (tie.choose below)
  | true, false => some below
  | false, true => some (below + 1)
  | false, false => none

/-- The number of decimal digits of a positive number. -/
def digitCount (n : Nat) : Nat :=
  (Nat.toDigits 10 n).length

/-- The position of the first digit: the number lies in `[10 ^ (k - 1), 10 ^ k)`. -/
def Binary.magnitude (b : Binary) : Int :=
  let quarter := b.quarter 0
  let n := 4 * b.significand * quarter.num
  -- below one, the zeros behind the point count downwards
  if quarter.den ≤ n then digitCount (n / quarter.den)
  else 1 - (digitCount ((quarter.den + n - 1) / n - 1) : Int)

/-! ### The shortest decimal -/

/-- A decimal `0.d₁d₂… * 10 ^ point`, without zeros at the end. -/
structure Digits where
  digits : List Char
  point : Int
deriving DecidableEq, Repr

/-- The decimal `d * 10 ^ e`. -/
def Digits.ofScaled (d : Nat) (e : Int) : Digits :=
  let ds := Nat.toDigits 10 d
  ⟨(ds.reverse.dropWhile (· == '0')).reverse, ds.length + e⟩

/-- Enough digits for every number of the grid. -/
def mostDigits : Nat := 17

/-- The shortest decimal that reads back as `b`, and of those the nearest. -/
def Binary.shortest (b : Binary) (tie : Tie) : Digits :=
  if b.significand = 0 then ⟨[], 0⟩
  else
    let k := b.magnitude
    let found := (List.range mostDigits).findSome? fun n =>
      let e := k - (n + 1 : Nat)
      (b.onGrid? tie e).map (Digits.ofScaled · e)
    found.getD ⟨[], 0⟩

end Lawbook.Decimal
