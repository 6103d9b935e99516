/-
Lawbook/Generator/Discrete.lean

Discrete generators: values chosen from a list.

Every round draws one number from the random source and takes the value at that fraction of the
list.  Numbers outside the unit interval stand for the first or the last value, so no number leads
outside the list (`place_lt`).  A list without values has nothing to choose from, and draws nothing.
-/
import Lawbook.Config
import Lawbook.Generator
import Lawbook.Inspect
import Lawbook.Text.Quoted

namespace Lawbook

variable {ω α : Type}

/-- A generator that chooses among values. -/
structure Discrete (α : Type) where
  id : GeneratorId
  name : String
  values : List α
  random : Source

namespace Discrete

/-- The place in a list of `size` values at the fraction `x`. -/
def place (x : Float) (size : Nat) : Nat :=
  min (x * Float.ofNat size).floor.toUInt64.toNat (size - 1)

theorem place_lt {x : Float} {size : Nat} (h : 0 < size) : place x size < size :=
  Nat.lt_of_le_of_lt (Nat.min_le_right _ _) (Nat.sub_lt h Nat.one_pos)

/-- The value of a round. -/
def get (g : Discrete α) (_round : Nat) : StateM (World ω) (Except GeneratorError α) :=
  if h : 0 < g.values.length then do
    let x ← g.random.draw
    return .ok (g.values.get ⟨place x g.values.length, place_lt h⟩)
  else return .error (.emptyValues g.name)

/-- As a generator. -/
def toGenerator (g : Discrete α) : Generator (World ω) α :=
  ⟨g.id, g.name, g.get⟩

/-- A discrete generator under inspection. -/
def inspect [Inspectable α] (label : GeneratorId → String) (g : Discrete α) : String :=
  Inspect.record "Discrete"
    [("id", g.id.inspect label), ("name", Text.quoted g.name),
     ("values", Inspect.list (g.values.map Inspectable.inspect)), ("random", g.random.inspect)]

end Discrete

end Lawbook
