/-
Lawbook/Generator/Continuous.lean

Continuous generators: values built from a fixed number of numbers in the unit interval.

Rounds 0 and 1 are the edge rounds, in which all numbers are 0 and all are 1; in every other round
each number is drawn from the generator's random source, in order.  The function that builds the
values belongs to the host and may fail.

* `params_zero`, `params_one` : the edge rounds draw nothing;
* `length_params` : a round has as many numbers as the generator has places;
* `value_get` : the value of a round is what the host builds from its numbers.
-/
import Lawbook.Callback
import Lawbook.Config
import Lawbook.Generator
import Lawbook.Text.Quoted

namespace Lawbook

variable {ω α : Type}

/-- A generator that builds its values from `arity` numbers. -/
structure Continuous (ω α : Type) where
  id : GeneratorId
  name : String
  arity : Nat
  build : List Float → Callback ω α
  random : Source

namespace Continuous

/-- The numbers of a round. -/
def params (g : Continuous ω α) (round : Nat) : StateM (World ω) (List Float) :=
  match round with
  | 0 => pure (List.replicate g.arity 0.0)
  | 1 => pure (List.replicate g.arity 1.0)
  | _ + 2 => g.random.draws g.arity

/-- The value of a round. -/
def get (g : Continuous ω α) (round : Nat) :
    StateM (World ω) (Except GeneratorError α) := do
  let xs ← g.params round
  match ← (Callback.within World.host World.setHost (g.build xs)).run with
  | .ok a => return .ok a
  | .error mishap => return .error (.failed g.name mishap.brief)

/-- As a generator. -/
def toGenerator (g : Continuous ω α) : Generator (World ω) α :=
  ⟨g.id, g.name, g.get⟩

/-- A continuous generator under inspection. -/
def inspect (label : GeneratorId → String) (g : Continuous ω α) : String :=
  Inspect.record "Continuous"
    [("id", g.id.inspect label), ("name", Text.quoted g.name), ("arity", toString g.arity),
     ("random", g.random.inspect)]

/-- The first round is the lower edge, and draws nothing. -/
@[simp] theorem params_zero (g : Continuous ω α) (w : World ω) :
    g.params 0 w = (List.replicate g.arity 0.0, w) := rfl

/-- The second round is the upper edge, and draws nothing. -/
@[simp] theorem params_one (g : Continuous ω α) (w : World ω) :
    g.params 1 w = (List.replicate g.arity 1.0, w) := rfl

end Continuous

/-- As many numbers are drawn as were asked for. -/
theorem Source.length_draws (source : Source) (n : Nat) (w : World ω) :
    (source.draws n w).1.length = n := by
  induction n generalizing w with
  | zero => rfl
  | succ n ih => exact congrArg (· + 1) (ih _)

/-- Every round has one number for each place, in the edge rounds and later. -/
theorem Continuous.length_params (g : Continuous ω α) (round : Nat) (w : World ω) :
    (g.params round w).1.length = g.arity := by
  match round with
  | 0 => exact List.length_replicate
  | 1 => exact List.length_replicate
  | _ + 2 => exact Source.length_draws _ _ _

/-- A continuous generator yields what its function builds, and it fails exactly where this does,
with the name of the generator in the message. -/
theorem Continuous.value_get (g : Continuous ω α) (round : Nat) (w : World ω) :
    (g.get round w).1 =
      match (g.build (g.params round w).1 (g.params round w).2.host).1 with
      | .ok a => .ok a
      | .error mishap => .error (.failed g.name mishap.brief) := by
  simp only [get, bind, StateT.bind, ExceptT.run, Callback.within]
  obtain ⟨xs, w'⟩ := g.params round w
  dsimp only
  rcases g.build xs w'.host with ⟨_ | _, _⟩ <;> rfl

end Lawbook
