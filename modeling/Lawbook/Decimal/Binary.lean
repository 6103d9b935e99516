/-
Lawbook/Decimal/Binary.lean

Floating-point numbers as exact fractions: sign, class, and for the finite ones a significand and
a power of two.

The decoding reads the 64 bits of the number.  A number at the lower end of its binade has a gap
below it that is half as wide as the gap above; `narrowBelow` says so, because the set of reals
that round to the number depends on it.
-/

namespace Lawbook.Decimal

/-- The number `significand * 2 ^ exponent`, a member of the floating-point grid. -/
structure Binary where
  significand : Nat
  exponent : Int
  /-- Whether the neighbour below is nearer than the neighbour above. -/
  narrowBelow : Bool
deriving DecidableEq, Repr

/-- What a floating-point number stands for. -/
inductive Reading where
  | nan
  | infinite (negative : Bool)
  | finite (negative : Bool) (magnitude : Binary)
deriving DecidableEq, Repr

/-- The number with the given 64 bits. -/
def Reading.ofBits (bits : Nat) : Reading :=
  let negative : Bool := (bits >>> 63) % 2 == 1
  let field : Nat := (bits >>> 52) % 2048
  let fraction : Nat := bits % (1 <<< 52)
  if field = 2047 then
    if fraction = 0 then .infinite negative else .nan
  else if field = 0 then
    -- next to zero the grid is even and there is no leading bit
    .finite negative ⟨fraction, -1074, false⟩
  else
    .finite negative ⟨((1 <<< 52) + fraction : Nat), (field : Int) - 1075, fraction == 0 && field != 1⟩

/-- What the number `x` stands for. -/
def Reading.ofFloat (x : Float) : Reading :=
  .ofBits x.toBits.toNat

end Lawbook.Decimal
