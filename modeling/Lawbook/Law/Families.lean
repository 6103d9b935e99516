/-
Lawbook/Law/Families.lean

The laws of the usual algebraic classes.

Every law is named after its property, so that a report says which one is broken.  Equality is a
parameter, so that a class can be checked against a notion of equality of its own; it and the
operations are callbacks, called in the order in which the formula of the law reads.

* `eqLaws` : reflexivity, symmetry and transitivity;
* `semigroupLaws` : associativity;
* `monoidLaws` : both identity laws; associativity belongs to the semigroup that a monoid extends.
-/
import Lawbook.Constraint

namespace Lawbook.Families

variable {σ α : Type}

/-! ### Laws of equality -/

/-- `a = a` -/
def reflexivity (eq : α → α → Callback σ Bool) : Constraint σ α :=
  obey "reflexivity" 1 fun xs => do
    let a ← argument xs 0
    eq a a

/-- `a = b` exactly if `b = a` -/
def symmetry (eq : α → α → Callback σ Bool) : Constraint σ α :=
  obey "symmetry" 2 fun xs => do
    let a ← argument xs 0
    let b ← argument xs 1
    let forth ← eq a b
    let back ← eq b a
    return forth == back

/-- `a = b` and `b = c` imply `a = c` -/
def transitivity (eq : α → α → Callback σ Bool) : Constraint σ α :=
  obey "transitivity" 3 fun xs => do
    let a ← argument xs 0
    let b ← argument xs 1
    let c ← argument xs 2
    if ← eq a b then
      if ← eq b c then eq a c else return true
    else return true

/-- All laws of an equality. -/
def eqLaws (eq : α → α → Callback σ Bool) : Constraint σ α :=
  .all [reflexivity eq, symmetry eq, transitivity eq]

/-- The laws of equality for a type's own test of equality. -/
def ownEqLaws [BEq α] : Constraint σ α :=
  eqLaws fun a b => pure (a == b)

/-! ### Laws of an operation -/

/-- `(a * b) * c = a * (b * c)` -/
def associativity (combine : α → α → Callback σ α) (eq : α → α → Callback σ Bool) :
    Constraint σ α :=
  obey "associativity" 3 fun xs => do
    let a ← argument xs 0
    let b ← argument xs 1
    let c ← argument xs 2
    let left ← combine (← combine a b) c
    let right ← combine a (← combine b c)
    eq left right

/-- `a * b = b * a` -/
def commutativity (combine : α → α → Callback σ α) (eq : α → α → Callback σ Bool) :
    Constraint σ α :=
  obey "commutativity" 2 fun xs => do
    let a ← argument xs 0
    let b ← argument xs 1
    let forth ← combine a b
    let back ← combine b a
    eq forth back

/-- `e * a = a` -/
def leftIdentity (empty : Callback σ α) (combine : α → α → Callback σ α)
    (eq : α → α → Callback σ Bool) : Constraint σ α :=
  obey "left_identity" 1 fun xs => do
    let e ← empty
    let a ← argument xs 0
    let product ← combine e a
    eq product a

/-- `a * e = a` -/
def rightIdentity (empty : Callback σ α) (combine : α → α → Callback σ α)
    (eq : α → α → Callback σ Bool) : Constraint σ α :=
  obey "right_identity" 1 fun xs => do
    let a ← argument xs 0
    let e ← empty
    let product ← combine a e
    eq product a

/-- The law of a semigroup. -/
def semigroupLaws (combine : α → α → Callback σ α) (eq : α → α → Callback σ Bool) :
    Constraint σ α :=
  associativity combine eq

/-- The laws that a monoid adds to those of a semigroup. -/
def monoidLaws (empty : Callback σ α) (combine : α → α → Callback σ α)
    (eq : α → α → Callback σ Bool) : Constraint σ α :=
  .all [leftIdentity empty combine eq, rightIdentity empty combine eq]

end Lawbook.Families
