/-
Lawbook/Scenario/Value.lean

Sample values of scenarios: values of several kinds that can be compared, measured and combined.

Equality is structural, and floating-point numbers compare as numbers do, so the value that is no
number differs from itself.  To measure a value is to read it as a floating-point number; a value
that has no such reading crashes the callback that asked for it.

* `combine` : sum, difference and product, part by part.
-/
import Lawbook.Callback
import Lawbook.Decimal.Layout
import Lawbook.Inspect
import Lawbook.Text.Quoted

namespace Lawbook.Scenario

open Decimal

/-- A text written `n` times in a row. -/
def repeated (s : String) (n : Nat) : String :=
  String.join (List.replicate n s)

/-- A sample value. -/
inductive Value where
  | unit
  | bool (b : Bool)
  | int (i : Int64)
  | real (x : Float)
  | text (s : String)
  | list (items : List Value)
  /-- A constructor with fields. -/
  | tagged (name : String) (fields : List Value)

namespace Value

instance : Inhabited Value := ⟨unit⟩

/-! ### Inspection -/

mutual

/-- A value under inspection. -/
def inspect : Value → String
  | unit => "()"
  | bool b => Inspect.bool b
  | int i => toString i
  | real x => exactText x
  | text s => Text.quoted s
  | list items => Inspect.list (inspectEach items)
  | tagged name fields => Inspect.tuple name (inspectEach fields)

/-- Several values under inspection. -/
def inspectEach : List Value → List String
  | [] => []
  | v :: vs => v.inspect :: inspectEach vs

end

instance : Inspectable Value := ⟨inspect⟩

/-! ### Equality -/

mutual

/-- Whether two values are equal. -/
def sameAs : Value → Value → Bool
  | unit, unit => true
  | bool a, bool b => a == b
  | int a, int b => a == b
  | real a, real b => a == b
  | text a, text b => a == b
  | list as, list bs => sameEach as bs
  | tagged m as, tagged n bs => m == n && sameEach as bs
  | _, _ => false

/-- Whether two lists of values are equal. -/
def sameEach : List Value → List Value → Bool
  | [], [] => true
  | a :: as, b :: bs => a.sameAs b && sameEach as bs
  | _, _ => false

end

instance : BEq Value := ⟨sameAs⟩

/-! ### Measuring -/

/-- The number that a value stands for: a number, or the number in the only field of a
constructor. -/
def measure {σ : Type} : Value → Callback σ Float
  | int i => pure i.toFloat
  | real x => pure x
  | tagged _ [field] => field.measure
  | v => Callback.crash s!"not a number: {v.inspect}"

/-! ### Combining -/

/-- An operation on two values, given for the kinds of values that have no parts. -/
structure Operation where
  onInts : Int64 → Int64 → Int64
  onReals : Float → Float → Float
  /-- Whether the operation also joins texts, lists and truth values. -/
  joins : Bool

/-- The sum of two values. -/
def Operation.add : Operation := ⟨(· + ·), (· + ·), true⟩

/-- The difference of two values. -/
def Operation.sub : Operation := ⟨(· - ·), (· - ·), false⟩

/-- The product of two values. -/
def Operation.mul : Operation := ⟨(· * ·), (· * ·), false⟩

/-- The crash of values that do not go together. -/
def cannotCombine {σ : Type} (a b : Value) : Callback σ Value :=
  Callback.crash s!"cannot combine {a.inspect} and {b.inspect}"

mutual

/-- Combines two values, constructors of one name and length field by field. -/
def combine {σ : Type} (op : Operation) : Value → Value → Callback σ Value
  | int a, int b => pure (int (op.onInts a b))
  | real a, real b => pure (real (op.onReals a b))
  | tagged m as, tagged n bs =>
    if m = n ∧ as.length = bs.length then do return tagged m (← combineEach op as bs)
    else cannotCombine (tagged m as) (tagged n bs)
  | a, b =>
    if op.joins then
      match a, b with
      | unit, unit => pure unit
      | bool x, bool y => pure (bool (x || y))
      | text s, text t => pure (text (s ++ t))
      | list xs, list ys => pure (list (xs ++ ys))
      | a, b => cannotCombine a b
    else cannotCombine a b

/-- Combines two lists of values one by one. -/
def combineEach {σ : Type} (op : Operation) : List Value → List Value → Callback σ (List Value)
  | a :: as, b :: bs => do
    let c ← combine op a b
    return c :: (← combineEach op as bs)
  | _, _ => pure []

end

end Value

end Lawbook.Scenario
