/-
Lawbook/Scenario/Script.lean

Scripts: the callbacks of scenarios, as data.

A script says what a callback does: how it compares or combines two values, what it answers about
a list of values, or which value it builds from numbers.  Some scripts fail or crash on purpose,
and a fuse answers yes for a number of calls and no after that; how often a fuse was asked and how
often each law was called is the state of the host.
-/
import Lawbook.Constraint
import Lawbook.Random.Source
import Lawbook.Scenario.Value

namespace Lawbook.Scenario

/-! ### The host -/

/-- The host of scripted callbacks. -/
structure Host where
  /-- How often each fuse was asked. -/
  fuses : List (Nat × Nat)
  /-- How often each law was called. -/
  calls : List (String × Nat)

/-- A host whose callbacks were never called. -/
def Host.start : Host := ⟨[], []⟩

/-- Counters with one more at a key. -/
def increment {κ : Type} [DecidableEq κ] (key : κ) : List (κ × Nat) → List (κ × Nat)
  | [] => [(key, 1)]
  | (other, n) :: rest =>
    if other = key then (other, n + 1) :: rest else (other, n) :: increment key rest

/-- The counter at a key. -/
def counter {κ : Type} [DecidableEq κ] (key : κ) : List (κ × Nat) → Nat
  | [] => 0
  | (other, n) :: rest => if other = key then n else counter key rest

theorem counter_increment {κ : Type} [DecidableEq κ] (key other : κ) (ns : List (κ × Nat)) :
    counter other (increment key ns) = counter other ns + if key = other then 1 else 0 := by
  induction ns with
  | nil => by_cases h : key = other <;> simp [increment, counter, h]
  | cons entry rest ih =>
    obtain ⟨k, n⟩ := entry
    rw [increment]
    split
    · next hk => subst hk; by_cases h : k = other <;> simp [counter, h]
    · next hk =>
      by_cases h : k = other
      · have : ¬ key = other := fun e => hk (h.trans e.symm)
        simp [counter, h, this]
      · simpa [counter, h] using ih

/-- The world of scenarios. -/
abbrev Stage : Type := World Host

namespace Host

/-- Counts a question to a fuse, and yields how often it was asked before. -/
def ask (fuse : Nat) : StateM Host Nat := fun h =>
  (counter fuse h.fuses, { h with fuses := increment fuse h.fuses })

/-- Counts a call of a law. -/
def noteCall (law : String) (h : Host) : Host :=
  { h with calls := increment law h.calls }

end Host

/-! ### Mishaps on purpose -/

/-- A callback that fails or crashes. -/
inductive Accident where
  | fails (fault : Fault)
  | crashes (payload : Payload)

/-- What such a callback does. -/
def Accident.run {σ β : Type} : Accident → Callback σ β
  | fails fault => throw (.error fault)
  | crashes payload => throw (.crash payload)

/-! ### Comparing -/

/-- A comparison of two values. -/
inductive Comparison where
  | same
  | different
  | always
  | never
  | less
  | lessOrEqual
  /-- Whether the first value is one more than the second. -/
  | successor
  /-- Whether the values are no further apart than a bound. -/
  | near (bound : Float)
  | accident (accident : Accident)

/-- What a comparison answers. -/
def Comparison.run {σ : Type} : Comparison → Value → Value → Callback σ Bool
  | same, a, b => pure (a == b)
  | different, a, b => pure (!(a == b))
  | always, _, _ => pure true
  | never, _, _ => pure false
  | less, a, b => do return (← a.measure) < (← b.measure)
  | lessOrEqual, a, b => do return (← a.measure) ≤ (← b.measure)
  | successor, a, b => do return (← a.measure) == (← b.measure) + 1.0
  | near bound, a, b => do return ((← a.measure) - (← b.measure)).abs ≤ bound
  | accident a, _, _ => a.run

/-! ### Combining -/

/-- A combination of two values. -/
inductive Combination where
  | operation (op : Value.Operation)
  | left
  | right
  | max
  | min
  /-- The mean of two numbers. -/
  | mean
  /-- Two texts in brackets. -/
  | nest

/-- What a combination yields. -/
def Combination.run {σ : Type} : Combination → Value → Value → Callback σ Value
  | operation op, a, b => a.combine op b
  | left, a, _ => pure a
  | right, _, b => pure b
  | max, a, b => do return if (← a.measure) ≥ (← b.measure) then a else b
  | min, a, b => do return if (← a.measure) ≤ (← b.measure) then a else b
  | mean, a, b => do return .real (((← a.measure) + (← b.measure)) / 2.0)
  | nest, .text s, .text t => pure (.text ("(" ++ s ++ t ++ ")"))
  | nest, a, b => Value.cannotCombine a b

/-! ### Questions -/

/-- A question about a list of values. -/
inductive Question where
  | answer (b : Bool)
  /-- Whether the values at two places are equal. -/
  | equalAt (i j : Nat)
  /-- Whether every value is one of those listed. -/
  | amongAll (allowed : List Value)
  /-- Whether every value measures less than a bound. -/
  | allBelow (bound : Float)
  /-- Yes for the first calls, and no after that. -/
  | fuse (id limit : Nat)
  | accident (accident : Accident)
  | choose (condition yes no : Question)

namespace Question

/-- Whether every value measures less than a bound; the first that does not ends the search. -/
def allLess {σ : Type} (bound : Float) : List Value → Callback σ Bool
  | [] => pure true
  | v :: vs => do if (← v.measure) < bound then allLess bound vs else return false

/-- What a question answers. -/
def run : Question → List Value → Callback Host Bool
  | answer b, _ => pure b
  | equalAt i j, xs => do
    let a ← argument xs i
    let b ← argument xs j
    return a == b
  | amongAll allowed, xs => pure (xs.all fun x => allowed.any fun a => x == a)
  | allBelow bound, xs => allLess bound xs
  | fuse id limit, _ => do return (← monadLift (Host.ask id)) < limit
  | accident a, _ => a.run
  | choose condition yes no, xs => do
    if ← condition.run xs then yes.run xs else no.run xs

/-- A question as a predicate of the law of the given name: every call is counted. -/
def asPredicate (law : String) (q : Question) (xs : List Value) : Callback Stage Bool :=
  Callback.within World.host World.setHost fun h => q.run xs (h.noteCall law)

end Question

/-- The constraint that a question is answered with yes. -/
def asking (law : String) (arity : Nat) (q : Question) : Constraint Stage Value :=
  obey law arity (q.asPredicate law)

/-- The same for a question that must not fail: its errors become crashes. -/
def askingBluntly (law : String) (arity : Nat) (q : Question) : Constraint Stage Value :=
  obey law arity fun xs => (q.asPredicate law xs).unfailing

/-! ### Building -/

/-- How a value is built from numbers. -/
inductive Builder where
  /-- The first number. -/
  | first
  /-- The sum of the numbers. -/
  | sum
  /-- The list of the numbers. -/
  | numbers
  /-- A constructor with the numbers as fields. -/
  | tagged (name : String)
  | constant (v : Value)
  /-- The whole part of a multiple of the first number. -/
  | whole (factor : Float)
  /-- A text as many times as the whole part of a multiple of the first number says. -/
  | word (factor : Float)
  | accident (accident : Accident)
  /-- A choice by whether the first number is below a bound. -/
  | threshold (bound : Float) (low high : Builder)
  /-- The first number, with a crash if it is above a bound. -/
  | capped (bound : Float)

/-- What a builder yields. -/
def Builder.run {σ : Type} : Builder → List Float → Callback σ Value
  | first, xs => do return .real (← argument xs 0)
  | sum, xs => pure (.real (xs.foldl (· + ·) 0.0))
  | numbers, xs => pure (.list (xs.map .real))
  | tagged name, xs => pure (.tagged name (xs.map .real))
  | constant v, _ => pure v
  | whole factor, xs => do return .int ((← argument xs 0) * factor).toInt64
  | word factor, xs => do
    return .text (repeated "ab" ((← argument xs 0) * factor).toUInt64.toNat)
  | accident a, _ => a.run
  | threshold bound low high, xs => do
    if (← argument xs 0) < bound then low.run xs else high.run xs
  | capped bound, xs => do
    let x ← argument xs 0
    if bound < x then Callback.crash s!"too large: {Decimal.exactText x}" else return .real x

/-! ### Streams -/

/-- The number `2 ^ -n`, down to the smallest of the grid, and zero beyond. -/
def halfPower (n : Nat) : Float :=
  -- down to the smallest number with a leading bit, only the exponent field changes
  if n < 1023 then .ofBits (.ofNat ((1023 - n) <<< 52))
  else if n ≤ 1074 then .ofBits (.ofNat (1 <<< (1074 - n)))
  else 0.0

/-- A stream that starts with `2 ^ -n` and halves at every step. -/
def halving (n k : Nat) : Float :=
  halfPower (n + k)

end Lawbook.Scenario
