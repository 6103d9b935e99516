/-
Lawbook/Decimal/Layout.lean

How a number is laid out as text.

A layout decides which magnitudes are written positionally, whether a whole number keeps a mark of
being a fraction, what stands before a power that is not negative, and which of two equally near
decimals stands for a number.  Two layouts are given here:

* `Layout.exact`, for values under inspection: positional from `0.0001` up to sixteen digits
  before the point, with `.0` on whole numbers, and in powers of ten elsewhere;
* `Layout.spoken`, for messages: always positional, whole numbers bare.
-/
import Lawbook.Decimal.Shortest

namespace Lawbook.Decimal

/-- The decisions of a layout. -/
structure Layout where
  /-- Bounds on the position of the first digit between which a number is written positionally. -/
  positional : Option (Int × Int)
  /-- Written after a whole number. -/
  wholeMark : String
  /-- Written before a power of ten that is not negative. -/
  plusSign : String
  /-- Which of two shortest decimals at the same distance is written. -/
  tie : Tie

/-- The layout of values under inspection. -/
def Layout.exact : Layout := ⟨some (-3, 16), ".0", "", .upper⟩

/-- The layout of numbers in messages. -/
def Layout.spoken : Layout := ⟨none, "", "", .upper⟩

/-- Whether a decimal with its first digit at `point` is written positionally. -/
def Layout.isPositional (l : Layout) (point : Int) : Bool :=
  match l.positional with
  | none => true
  | some (low, high) => low ≤ point && point ≤ high

/-- As many zeros as asked for. -/
def zeros (n : Nat) : List Char :=
  List.replicate n '0'

/-- A decimal written with a point and no power of ten. -/
def Layout.positionalText (l : Layout) (d : Digits) : List Char :=
  if d.digits = [] then '0' :: l.wholeMark.toList
  else if d.point ≤ 0 then '0' :: '.' :: zeros (-d.point).toNat ++ d.digits
  else
    let whole := d.point.toNat
    if d.digits.length ≤ whole then
      d.digits ++ zeros (whole - d.digits.length) ++ l.wholeMark.toList
    else d.digits.take whole ++ '.' :: d.digits.drop whole

/-- A decimal written with one digit before the point and a power of ten. -/
def Layout.powerText (l : Layout) (d : Digits) : List Char :=
  let tail := match d.digits.drop 1 with
    | [] => []
    | rest => '.' :: rest
  let power := d.point - 1
  let sign := if 0 ≤ power then l.plusSign.toList else []
  d.digits.take 1 ++ tail ++ 'e' :: sign ++ (toString power).toList

/-- The text of a number. -/
def Layout.text (l : Layout) (x : Float) : String :=
  match Reading.ofFloat x with
  | .nan => "NaN"
  | .infinite negative => if negative then "-inf" else "inf"
  | .finite negative b =>
    let d := b.shortest l.tie
    let body :=
      if d.digits = [] || l.isPositional d.point then l.positionalText d else l.powerText d
    String.ofList (if negative then '-' :: body else body)

/-- The text of a number under inspection. -/
def exactText (x : Float) : String :=
  Layout.exact.text x

/-- The text of a number in a message. -/
def spokenText (x : Float) : String :=
  Layout.spoken.text x

end Lawbook.Decimal
