/-
Lawbook/Random/Source.lean

Random sources: streams of numbers that are read through a shared cursor.

A source is a stream together with the cell that holds its position.  Copies of a source share the
cell, so that the draws of all copies together go through the stream once, in the order in which
they are made.  The positions of all cells form the `Cursors` of a program run.

* `position_advance_self` : a draw moves its own cursor by one;
* `position_advance_of_ne` : and no other cursor;
* `getElem?_cycle` : a sequence cycles through its numbers.
-/
import Lawbook.Random.ChaCha

namespace Lawbook

/-! ### Cursors -/

/-- The identity of the position that the copies of a source share. -/
structure Cell where
  index : Nat
deriving DecidableEq, Repr, Inhabited

/-- The positions of all cells.  A cell that was never used is at the start. -/
structure Cursors where
  positions : Array Nat
deriving DecidableEq, Repr, Inhabited

namespace Cursors

/-- All cells at the start. -/
def start : Cursors := ⟨#[]⟩

/-- How many numbers were drawn through a cell. -/
def position (cs : Cursors) (c : Cell) : Nat :=
  cs.positions[c.index]?.getD 0

/-- One number is drawn through a cell. -/
def advance (cs : Cursors) (c : Cell) : Cursors :=
  if c.index < cs.positions.size then
    ⟨cs.positions.modify c.index (· + 1)⟩
  else
    ⟨(cs.positions ++ Array.replicate (c.index - cs.positions.size) 0).push 1⟩

/-- A draw moves the cursor of its own cell by one. -/
@[simp] theorem position_advance_self (cs : Cursors) (c : Cell) :
    (cs.advance c).position c = cs.position c + 1 := by
  unfold advance position
  split <;> grind

/-- A draw does not move the cursors of other cells. -/
theorem position_advance_of_ne {cs : Cursors} {c d : Cell} (h : d ≠ c) :
    (cs.advance c).position d = cs.position d := by
  have hi : d.index ≠ c.index := fun e => h (by cases d; cases c; simp_all)
  unfold advance position
  split <;> grind

end Cursors

/-! ### Sources -/

/-- A random source.  The ambient source is the one that every program has without asking for it;
its copies are all there is of it. -/
inductive Source where
  | constant (value : Float)
  | sequence (values : Array Float) (cell : Cell)
  | seeded (seed : UInt64) (cell : Cell)
  | custom (stream : Nat → Float) (cell : Cell)
  | ambient

namespace Source

/-- The word for the kind of a source. -/
def kind : Source → String
  | constant _ => "constant"
  | sequence _ _ => "sequence"
  | seeded _ _ => "seeded"
  | custom _ _ => "custom"
  | ambient => "thread_rng"

/-- The cell of a source that keeps a position of its own. -/
def cell? : Source → Option Cell
  | constant _ => none
  | sequence _ cell => some cell
  | seeded _ cell => some cell
  | custom _ cell => some cell
  | ambient => none

/-- The stream of a sequence: its numbers in turn, and zero if it has none.  Positions are counted
in words of 64 bits. -/
def cycle (values : Array Float) (k : Nat) : Float :=
  values.getD (k % UInt64.size % values.size) 0.0

/-- To go around the values is to count modulo their number. -/
theorem getElem?_cycle {values : Array Float} (h : 0 < values.size) {k : Nat}
    (hk : k < UInt64.size) :
    values[k % values.size]? = some (cycle values k) := by
  rw [cycle, Nat.mod_eq_of_lt hk, Array.getD, dif_pos (Nat.mod_lt _ h)]
  exact Array.getElem?_eq_getElem (Nat.mod_lt _ h)

end Source

/-! ### The world that sources are drawn in -/

/-- What draws read and change: the cursors, the stream of the ambient source, and the state of the
host's own callbacks. -/
structure World (ω : Type) where
  cursors : Cursors
  ambient : Nat → Float
  ambientPosition : Nat
  host : ω

namespace World

variable {ω : Type}

/-- A world before any draw. -/
def start (ambient : Nat → Float) (host : ω) : World ω :=
  ⟨.start, ambient, 0, host⟩

/-- The world with another state of the host. -/
def setHost (host : ω) (w : World ω) : World ω :=
  { w with host }

end World

namespace Source

variable {ω : Type}

/-- The number at the cursor of a cell; the cursor moves on. -/
def drawThrough (stream : Nat → Float) (cell : Cell) : StateM (World ω) Float := fun w =>
  (stream (w.cursors.position cell), { w with cursors := w.cursors.advance cell })

/-- The next number of a source. -/
def draw : Source → StateM (World ω) Float
  | constant value => pure value
  | sequence values cell => drawThrough (cycle values) cell
  | seeded seed cell => drawThrough (Random.seededDraw seed) cell
  | custom stream cell => drawThrough stream cell
  | ambient => fun w =>
    (w.ambient w.ambientPosition, { w with ambientPosition := w.ambientPosition + 1 })

/-- The next `n` numbers of a source. -/
def draws (source : Source) : Nat → StateM (World ω) (List Float)
  | 0 => pure []
  | n + 1 => do
    let x ← source.draw
    return x :: (← source.draws n)

end Source

end Lawbook
