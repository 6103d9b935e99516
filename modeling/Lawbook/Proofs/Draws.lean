/-
Lawbook/Proofs/Draws.lean

Draws: which numbers reach those who hold a source, and what a check draws.

`Source.Drawn` lists the numbers that are drawn from a source on the way from one world to another,
one draw after the other.  A generator leaves nothing else behind than its draws and what the host
does: a continuous one draws as many numbers as it has places, but none in the edge rounds
(`Continuous.get_draws`), a discrete one draws one number if it has values to choose from
(`Discrete.get_draws`).

A program may hold many copies of a source, in its own hands and in generators, and use them in any
order and together with other sources (`Use`).  Since all copies move one cursor, what they receive
together is one stretch of the stream of the source (`Use.numbers_eq_stretch`).

A check that passes all its rounds asks for the same number of values in every one of them, and the
first two are free (`Law.PassEach.spends`).

Main result: `draws_accounted`.
-/
import Lawbook.Generator.Discrete
import Lawbook.Proofs.Search
import Mathlib.Algebra.GroupWithZero.Nat

namespace Lawbook

open Event Run

variable {ω α β : Type}

/-! ### Sources and their streams -/

namespace Source

/-- The source reads a stream, at the position that a cell holds. -/
inductive Follows : Source → (Nat → Float) → Cell → Prop
  | sequence (values : Array Float) (cell : Cell) :
      Follows (.sequence values cell) (cycle values) cell
  | seeded (seed : UInt64) (cell : Cell) :
      Follows (.seeded seed cell) (Random.seededDraw seed) cell
  | custom (stream : Nat → Float) (cell : Cell) : Follows (.custom stream cell) stream cell

/-- How many numbers were drawn from a source; nobody counts for a constant one. -/
def position? : Source → World ω → Option Nat
  | constant _, _ => none
  | sequence _ cell, w => some (w.cursors.position cell)
  | seeded _ cell, w => some (w.cursors.position cell)
  | custom _ cell, w => some (w.cursors.position cell)
  | ambient, w => some w.ambientPosition

/-- The numbers that are drawn from a source on the way from one world to another. -/
inductive Drawn (source : Source) : World ω → List Float → World ω → Prop
  | done (w : World ω) : Drawn source w [] w
  | next {w w' w'' : World ω} {x : Float} {xs : List Float} :
      source.draw w = (x, w') → Drawn source w' xs w'' → Drawn source w (x :: xs) w''

/-- The next `n` numbers of a stream, from a position on. -/
def stretch (stream : Nat → Float) (position n : Nat) : List Float :=
  (List.range n).map fun k => stream (position + k)

variable {source : Source} {stream : Nat → Float} {cell : Cell} {w w' : World ω}
variable {xs : List Float} {position m n : Nat}

/-- A stretch of the stream is its first number and the stretch behind it. -/
theorem stretch_succ :
    stretch stream position (n + 1) = stream position :: stretch stream (position + 1) n := by
  unfold stretch
  rw [List.range_succ_eq_map, List.map_cons, List.map_map]
  apply congrArg
  apply List.map_congr_left
  intro k _
  show stream (position + (k + 1)) = stream (position + 1 + k)
  congr 1
  omega

/-- Two stretches that meet are one. -/
theorem stretch_append :
    stretch stream position m ++ stretch stream (position + m) n =
      stretch stream position (m + n) := by
  induction m generalizing position with
  | zero => simp [stretch]
  | succ m ih =>
    have hshift : position + (m + 1) = position + 1 + m := by omega
    rw [stretch_succ, List.cons_append, hshift, ih, ← stretch_succ, Nat.add_right_comm]

/-- A draw takes the number at the cursor, and moves the cursor of its own cell by one. -/
theorem Follows.draw_eq (hf : source.Follows stream cell) (w : World ω) :
    source.draw w =
      (stream (w.cursors.position cell), { w with cursors := w.cursors.advance cell }) := by
  cases hf <;> rfl

@[simp] theorem position?_setHost (source : Source) (w : World ω) (s : ω) :
    source.position? (w.setHost s) = source.position? w := by
  cases source <;> rfl

/-- A draw is counted at its own source. -/
theorem position?_draw (source : Source) (w : World ω) :
    source.position? (source.draw w).2 = (source.position? w).map (· + 1) := by
  cases source with
  | constant value => rfl
  | sequence values cell => exact congrArg some (w.cursors.position_advance_self cell)
  | seeded seed cell => exact congrArg some (w.cursors.position_advance_self cell)
  | custom stream cell => exact congrArg some (w.cursors.position_advance_self cell)
  | ambient => rfl

/-- A draw from another source leaves a cell alone. -/
theorem position_draw_of_ne (hne : source.cell? ≠ some cell) (w : World ω) :
    (source.draw w).2.cursors.position cell = w.cursors.position cell := by
  have hother : ∀ other, source.cell? = some other → cell ≠ other := by
    rintro other hc rfl
    exact hne hc
  cases source with
  | constant value => rfl
  | sequence values other => exact Cursors.position_advance_of_ne (hother other rfl)
  | seeded seed other => exact Cursors.position_advance_of_ne (hother other rfl)
  | custom stream other => exact Cursors.position_advance_of_ne (hother other rfl)
  | ambient => rfl

/-- Draws in a row are draws, one after the other. -/
theorem drawn_draws (source : Source) (n : Nat) (w : World ω) :
    source.Drawn w (source.draws n w).1 (source.draws n w).2 := by
  induction n generalizing w with
  | zero => exact .done w
  | succ n ih => exact .next rfl (ih _)

/-- Draws move the cursor of the source by their number. -/
theorem Drawn.position?_eq (hd : source.Drawn w xs w') :
    source.position? w' = (source.position? w).map (· + xs.length) := by
  induction hd with
  | done w => simp
  | @next w w' w'' x xs hx _ ih =>
    have hstep := source.position?_draw w
    rw [hx] at hstep
    rw [ih, hstep, Option.map_map]
    congr 1
    funext k
    show k + 1 + xs.length = k + (xs.length + 1)
    omega

/-- What is drawn from a source is a stretch of its stream, and the cursor moves along it. -/
theorem Drawn.eq_stretch (hf : source.Follows stream cell) (hd : source.Drawn w xs w') :
    xs = stretch stream (w.cursors.position cell) xs.length ∧
      w'.cursors.position cell = w.cursors.position cell + xs.length := by
  induction hd with
  | done w => exact ⟨rfl, rfl⟩
  | @next w w' w'' x xs hx _ ih =>
    rw [hf.draw_eq] at hx
    cases hx
    obtain ⟨hxs, hw⟩ := ih
    rw [Cursors.position_advance_self] at hxs hw
    constructor
    · rw [List.length_cons, stretch_succ, ← hxs]
    · rw [hw, List.length_cons]
      omega

/-- Draws leave the cursors of other sources where they are. -/
theorem Drawn.position_eq_of_ne (hne : source.cell? ≠ some cell) (hd : source.Drawn w xs w') :
    w'.cursors.position cell = w.cursors.position cell := by
  induction hd with
  | done w => rfl
  | @next w w' w'' x xs hx _ ih =>
    have hstep := position_draw_of_ne hne w
    rw [hx] at hstep
    rw [ih, hstep]

/-- Draws in a row yield the stretch of the stream that starts at the cursor. -/
theorem Follows.draws_eq (hf : source.Follows stream cell) (n : Nat) (w : World ω) :
    (source.draws n w).1 = stretch stream (w.cursors.position cell) n := by
  have hd := (source.drawn_draws n w).eq_stretch hf
  rw [length_draws] at hd
  exact hd.1

end Source

/-! ### What generators draw -/

/-- What a continuous generator makes of the numbers of a round: a value, or a failure. -/
def Continuous.built (g : Continuous ω α) (xs : List Float) (w : World ω) :
    Except GeneratorError α × World ω :=
  match g.build xs w.host with
  | (.ok a, s) => (.ok a, w.setHost s)
  | (.error mishap, s) => (.error (.failed g.name mishap.brief), w.setHost s)

/-- How many numbers a continuous generator draws in a round. -/
def Continuous.cost (g : Continuous ω α) (round : Nat) : Nat :=
  if round < 2 then 0 else g.arity

/-- What a continuous generator draws in a round, whatever becomes of its value. -/
structure Continuous.Draws (g : Continuous ω α) (round : Nat) (w : World ω) : Prop where
  /-- In the edge rounds it draws nothing: the numbers are zeros, and then ones. -/
  zeros : round = 0 → g.get round w = g.built (List.replicate g.arity 0.0) w
  ones : round = 1 → g.get round w = g.built (List.replicate g.arity 1.0) w
  /-- In every other round it draws a number for each place, in order, and nothing else. -/
  drawn : 2 ≤ round → ∃ xs w', g.random.Drawn w xs w' ∧ xs.length = g.arity ∧
    g.get round w = g.built xs w'

/-- What a discrete generator draws in a round. -/
structure Discrete.Draws (g : Discrete α) (round : Nat) (w : World ω) : Prop where
  /-- Without values it draws nothing. -/
  empty : g.values = [] → g.get round w = (.error (.emptyValues g.name), w)
  /-- Otherwise it draws one number, and takes the value at its place. -/
  drawn : g.values ≠ [] → ∃ x w' i, ∃ hi : i < g.values.length, g.random.Drawn w [x] w' ∧
    i = place x g.values.length ∧ g.get round w = (.ok (g.values.get ⟨i, hi⟩), w')
  /-- Every number has a place in the list. -/
  in_range : g.values ≠ [] → ∀ x, place x g.values.length < g.values.length

/-- The numbers of a round are drawn, but for the constants of the edge rounds. -/
theorem Continuous.params_drawn (g : Continuous ω α) (round : Nat) (w : World ω) :
    g.random.Drawn w (if round < 2 then [] else (g.params round w).1) (g.params round w).2 := by
  match round with
  | 0 => exact .done w
  | 1 => exact .done w
  | i + 2 =>
    rw [if_neg (Nat.not_lt.2 (Nat.le_add_left 2 i))]
    exact g.random.drawn_draws g.arity w

theorem Continuous.get_eq_built (g : Continuous ω α) (round : Nat) (w : World ω) :
    g.get round w = g.built (g.params round w).1 (g.params round w).2 := by
  rw [get_eq]
  rfl

/-- **A continuous generator draws one number for each place**, but none in the edge rounds. -/
theorem Continuous.get_draws (g : Continuous ω α) (round : Nat) (w : World ω) :
    g.Draws round w where
  zeros := by
    rintro rfl
    rw [get_eq_built, params_zero]
  ones := by
    rintro rfl
    rw [get_eq_built, params_one]
  drawn := by
    intro htwo
    obtain ⟨i, rfl⟩ := Nat.exists_eq_add_of_le' htwo
    exact ⟨_, _, g.random.drawn_draws g.arity w, g.length_params (i + 2) w, g.get_eq_built _ w⟩

/-- **A discrete generator draws one number**, if it has values to choose from. -/
theorem Discrete.get_draws (g : Discrete α) (round : Nat) (w : World ω) : g.Draws round w where
  empty := by
    intro hnil
    have hlength : ¬ 0 < g.values.length := by simp [hnil]
    unfold get
    rw [dif_neg hlength]
    rfl
  drawn := by
    intro hne
    have hlength : 0 < g.values.length := List.length_pos_iff.2 hne
    refine ⟨(g.random.draw w).1, (g.random.draw w).2, _, place_lt hlength, .next rfl (.done _),
      rfl, ?_⟩
    unfold get
    rw [dif_pos hlength]
    rfl
  in_range := by
    intro hne x
    exact place_lt (List.length_pos_iff.2 hne)

theorem Continuous.setHost_built (g : Continuous ω α) (xs : List Float) (w : World ω) :
    (g.built xs w).2 = w.setHost (g.built xs w).2.host := by
  unfold built
  rcases g.build xs w.host with ⟨_ | _, _⟩ <;> rfl

/-- The draws of a round are counted at the source of the generator. -/
theorem Continuous.position?_get (g : Continuous ω α) (round : Nat) (w : World ω) :
    g.random.position? (g.get round w).2 = (g.random.position? w).map (· + g.cost round) := by
  have hd := g.get_draws round w
  match round with
  | 0 =>
    rw [hd.zeros rfl, setHost_built, Source.position?_setHost]
    simp [cost]
  | 1 =>
    rw [hd.ones rfl, setHost_built, Source.position?_setHost]
    simp [cost]
  | i + 2 =>
    obtain ⟨xs, w', hxs, hlength, hget⟩ := hd.drawn (Nat.le_add_left 2 i)
    have hcost : g.cost (i + 2) = g.arity := if_neg (Nat.not_lt.2 (Nat.le_add_left 2 i))
    rw [hget, setHost_built, Source.position?_setHost, hxs.position?_eq, hlength, hcost]

/-! ### Uses of sources in any order -/

/-- One thing that a program does with the sources that it holds. -/
inductive Use (ω : Type) : Type 1 where
  /-- A number is drawn from a source, or from a copy of it. -/
  | draw (source : Source)
  /-- A generator that holds a source is asked for the numbers of a round. -/
  | params {α : Type} (g : Continuous ω α) (round : Nat)
  /-- A generator that holds a source is asked for the value of a round. -/
  | continuous {α : Type} (g : Continuous ω α) (round : Nat)
  | discrete {α : Type} (g : Discrete α) (round : Nat)
  /-- The host goes on by itself. -/
  | proceed (step : ω → ω)

namespace Use

/-- The source that is used. -/
def source? : Use ω → Option Source
  | draw source => some source
  | params g _ => some g.random
  | continuous g _ => some g.random
  | discrete g _ => some g.random
  | proceed _ => none

/-- The numbers that are drawn from the source, for whoever uses it, and the world after that. -/
def carry : Use ω → World ω → List Float × World ω
  | draw source, w => ([(source.draw w).1], (source.draw w).2)
  -- the zeros and ones of the edge rounds are not drawn
  | params g round, w =>
    (if round < 2 then [] else (g.params round w).1, (g.params round w).2)
  | continuous g round, w =>
    (if round < 2 then [] else (g.params round w).1, (g.get round w).2)
  | discrete g round, w =>
    (if g.values.isEmpty then [] else [(g.random.draw w).1], (g.get round w).2)
  | proceed step, w => ([], w.setHost (step w.host))

/-- The world after some uses. -/
def after : List (Use ω) → World ω → World ω
  | [], w => w
  | u :: us, w => after us (u.carry w).2

/-- The numbers that are drawn through a cell in the course of some uses, whoever draws them. -/
def numbers (cell : Cell) : List (Use ω) → World ω → List Float
  | [], _ => []
  | u :: us, w =>
    (if u.source?.bind Source.cell? = some cell then (u.carry w).1 else []) ++
      numbers cell us (u.carry w).2

/-- Whoever uses a cell has a copy of this sequence in hands. -/
def Shares (values : Array Float) (cell : Cell) (u : Use ω) : Prop :=
  ∀ source, u.source? = some source → source.cell? = some cell → source = .sequence values cell

variable {u : Use ω} {us : List (Use ω)} {cell : Cell} {stream : Nat → Float} {w : World ω}

/-- A use draws its numbers and leaves the rest to the host. -/
theorem carry_drawn {source : Source} (hs : u.source? = some source) (w : World ω) :
    ∃ w', source.Drawn w (u.carry w).1 w' ∧ (u.carry w).2 = w'.setHost (u.carry w).2.host := by
  cases u with
  | draw source =>
    cases hs
    exact ⟨_, .next rfl (.done _), rfl⟩
  | params g round =>
    cases hs
    exact ⟨_, g.params_drawn round w, rfl⟩
  | continuous g round =>
    cases hs
    refine ⟨_, g.params_drawn round w, ?_⟩
    show (g.get round w).2 = (g.params round w).2.setHost (g.get round w).2.host
    rw [g.get_eq_built]
    exact g.setHost_built _ _
  | discrete g round =>
    cases hs
    have hd := g.get_draws round w
    by_cases hnil : g.values = []
    -- with nothing to choose from, no number is drawn
    · refine ⟨w, ?_, ?_⟩
      · simp only [carry, hnil, List.isEmpty_nil, if_true]
        exact .done w
      · simp only [carry, hd.empty hnil]
        rfl
    · obtain ⟨x, w', i, hi, hx, -, hget⟩ := hd.drawn hnil
      refine ⟨w', ?_, ?_⟩
      · cases hx with
        | next hdraw hrest =>
          cases hrest
          simp only [carry, List.isEmpty_iff, hnil, if_false, hdraw]
          exact .next hdraw (.done _)
      · simp only [carry, hget]
        rfl
  | proceed step => cases hs

/-- One use of a cell receives the next stretch of its stream. -/
theorem carry_eq_stretch {source : Source} (hs : u.source? = some source)
    (hf : source.Follows stream cell) (w : World ω) :
    (u.carry w).1 = Source.stretch stream (w.cursors.position cell) (u.carry w).1.length ∧
      (u.carry w).2.cursors.position cell =
        w.cursors.position cell + (u.carry w).1.length := by
  obtain ⟨w', hd, hw⟩ := u.carry_drawn hs w
  have hstretch := hd.eq_stretch hf
  rw [hw]
  exact hstretch

/-- A use of anything else leaves the cell alone. -/
theorem position_carry_of_ne (hne : u.source?.bind Source.cell? ≠ some cell) (w : World ω) :
    (u.carry w).2.cursors.position cell = w.cursors.position cell := by
  cases hs : u.source? with
  | none =>
    cases u with
    | proceed step => rfl
    | draw source => cases hs
    | params g round => cases hs
    | continuous g round => cases hs
    | discrete g round => cases hs
  | some source =>
    rw [hs] at hne
    obtain ⟨w', hd, hw⟩ := u.carry_drawn hs w
    have hsame := hd.position_eq_of_ne hne
    rw [hw]
    exact hsame

/-- **All who draw through a cell share one stream.**  In whatever order they draw, what they
receive together is the next stretch of it. -/
theorem numbers_eq_stretch (hus : ∀ u ∈ us, ∀ source, u.source? = some source →
      source.cell? = some cell → source.Follows stream cell) (w : World ω) :
    numbers cell us w =
        Source.stretch stream (w.cursors.position cell) (numbers cell us w).length ∧
      (after us w).cursors.position cell =
        w.cursors.position cell + (numbers cell us w).length := by
  induction us generalizing w with
  | nil => exact ⟨rfl, rfl⟩
  | cons u us ih =>
    obtain ⟨hu, hus⟩ := List.forall_mem_cons.1 hus
    obtain ⟨hrest, hafter⟩ := ih hus (u.carry w).2
    rw [numbers, after]
    by_cases hcell : u.source?.bind Source.cell? = some cell
    -- the others go on where this one stopped
    · obtain ⟨source, hs, hc⟩ := Option.bind_eq_some_iff.1 hcell
      obtain ⟨hnow, hmoved⟩ := carry_eq_stretch hs (hu source hs hc) w
      rw [hmoved] at hrest hafter
      rw [if_pos hcell, List.length_append, ← Source.stretch_append, ← hnow, ← hrest]
      refine ⟨rfl, ?_⟩
      rw [hafter, Nat.add_assoc]
    · have hsame := position_carry_of_ne hcell w
      rw [hsame] at hrest hafter
      rw [if_neg hcell, List.nil_append]
      exact ⟨hrest, hafter⟩

end Use

/-- What the copies of a sequence receive in the course of some uses. -/
structure Source.InTurn (values : Array Float) (cell : Cell) (us : List (Use ω)) (w : World ω) :
    Prop where
  /-- The draw that is number `p` of all draws through the cell yields the number at place `p`, in
  turn.  Where the uses start, some draws may have been made already. -/
  number_eq : ∀ k < (Use.numbers cell us w).length,
    w.cursors.position cell + k < UInt64.size →
      (Use.numbers cell us w)[k]? = values[(w.cursors.position cell + k) % values.size]?
  /-- No draw is lost, and none is made for nobody. -/
  position_eq : (Use.after us w).cursors.position cell =
    w.cursors.position cell + (Use.numbers cell us w).length

theorem Source.inTurn {values : Array Float} {cell : Cell} {us : List (Use ω)}
    (hvalues : 0 < values.size) (hus : ∀ u ∈ us, u.Shares values cell) (w : World ω) :
    Source.InTurn values cell us w := by
  have hfollows : ∀ u ∈ us, ∀ source, u.source? = some source → source.cell? = some cell →
      source.Follows (cycle values) cell := by
    intro u hu source hs hc
    rw [hus u hu source hs hc]
    exact .sequence values cell
  obtain ⟨hnumbers, hposition⟩ := Use.numbers_eq_stretch hfollows w
  refine ⟨fun k hk hword => ?_, hposition⟩
  rw [getElem?_cycle hvalues hword, hnumbers, stretch, List.getElem?_map, List.getElem?_range hk]
  rfl

/-! ### What a check draws -/

/-- The rounds for which generators were asked, in order. -/
def Event.askedRounds (es : List (Event α)) : List Nat :=
  es.filterMap fun
    | drew _ round => some round
    | _ => none

namespace Law

/-- Calls of the predicate leave a source alone. -/
def Spares (law : Law (World ω) α) (source : Source) : Prop :=
  ∀ values w, source.position? (law.predicate values w).2 = source.position? w

/-- What `n` rounds of a check draw that lead from one world to another. -/
structure Spends (law : Law (World ω) α) (g : Continuous ω α) (n : Nat) (w w' : World ω)
    (es : List (Event α)) : Prop where
  /-- The generator is asked for all values of the first rounds, in order, -/
  asked_eq : askedRounds es = (List.range n).flatMap (List.replicate law.arity)
  /-- and this many numbers are drawn for them. -/
  cost_eq : ((askedRounds es).map g.cost).sum = law.arity * g.arity * (n - 2)
  /-- So far the source moves on, unless the predicate draws from it as well. -/
  position?_eq : law.Spares g.random →
    g.random.position? w' = (g.random.position? w).map (· + law.arity * g.arity * (n - 2))

variable {law : Law (World ω) α} {g : Continuous ω α} {i : Nat} {w w' : World ω}
variable {values : List α} {tuples : List (List α)}

theorem askedRounds_append (es es' : List (Event α)) :
    askedRounds (es ++ es') = askedRounds es ++ askedRounds es' :=
  List.filterMap_append

/-- A round that is judged asks for its own values only. -/
theorem askedRounds_calls {σ : Type} (law : Law σ α) (g : Generator σ α) (i : Nat)
    (values : List α) : askedRounds (law.calls g i values) = List.replicate law.arity i := by
  rw [calls, askedRounds_append]
  show askedRounds (List.replicate law.arity (drew g.id i : Event α)) ++ [] = _
  rw [List.append_nil, askedRounds, List.filterMap_replicate]

/-- Rounds in a row ask for their values in turn, as many in each as the law has places. -/
theorem askedRounds_callsEach {σ : Type} (law : Law σ α) (g : Generator σ α) (i : Nat)
    (tuples : List (List α)) : askedRounds (law.callsEach g i tuples) =
      (List.range' i tuples.length).flatMap (List.replicate law.arity) := by
  induction tuples generalizing i with
  | nil => rfl
  | cons values tuples ih =>
    rw [callsEach, askedRounds_append, askedRounds_calls, ih, List.length_cons, List.range'_succ,
      List.flatMap_cons]

/-- The costs of a number of rounds; the two edge rounds cost nothing. -/
theorem sum_cost (g : Continuous ω α) (arity n : Nat) :
    (((List.range n).flatMap (List.replicate arity)).map g.cost).sum =
      arity * g.arity * (n - 2) := by
  induction n with
  | zero => rfl
  | succ n ih =>
    rw [List.range_succ, List.flatMap_append, List.map_append, List.sum_append, ih]
    simp only [List.flatMap_cons, List.flatMap_nil, List.append_nil, List.map_replicate,
      List.sum_replicate_nat, Continuous.cost]
    split
    · next hedge =>
      have hn : n + 1 - 2 = n - 2 := by omega
      rw [hn, Nat.mul_zero, Nat.add_zero]
    · next hlate =>
      have hn : n + 1 - 2 = n - 2 + 1 := by omega
      rw [hn, Nat.mul_succ]

/-- Values that are returned have moved the cursor by what each of them costs. -/
theorem position?_of_returns {w w' : World ω} (hr : Returns (g.toGenerator.get i) w values w') :
    g.random.position? w' = (g.random.position? w).map (· + values.length * g.cost i) := by
  induction hr with
  | done w => simp
  | @next w w₁ w' a values ha _ ih =>
    have hstep := g.position?_get i w
    rw [show g.get i w = (.ok a, w₁) from ha] at hstep
    rw [ih, hstep, Option.map_map]
    congr 1
    funext k
    show k + g.cost i + values.length * g.cost i = k + (values.length + 1) * g.cost i
    rw [Nat.succ_mul]
    omega

/-- A round that passes moves the cursor by what its values cost, if the predicate draws nothing
itself. -/
theorem Passes.position?_eq (hlaw : law.Spares g.random)
    (hp : law.Passes g.toGenerator i w values w') :
    g.random.position? w' = (g.random.position? w).map (· + law.arity * g.cost i) := by
  obtain ⟨hlength, u, hreturns, hpredicate⟩ := hp
  have hspared := hlaw values u
  rw [hpredicate] at hspared
  rw [hspared, position?_of_returns hreturns, hlength]

/-- Rounds that pass move the cursor by what all their values cost: by induction on the rounds. -/
theorem PassEach.position?_eq (hlaw : law.Spares g.random)
    (hp : law.PassEach g.toGenerator i w tuples w') :
    g.random.position? w' = (g.random.position? w).map (· +
      (((List.range' i tuples.length).flatMap (List.replicate law.arity)).map g.cost).sum) := by
  induction hp with
  | done i w => simp
  | @next i w w₁ w' values tuples hpass _ ih =>
    rw [ih, hpass.position?_eq hlaw, Option.map_map]
    congr 1
    funext k
    rw [List.length_cons, List.range'_succ, List.flatMap_cons, List.map_append, List.sum_append,
      List.map_replicate, List.sum_replicate_nat]
    show k + law.arity * g.cost i + _ = _
    omega

/-- **Rounds that pass draw one number for each place of each value, but for the edge rounds.** -/
theorem PassEach.spends (hp : law.PassEach g.toGenerator 0 w tuples w') :
    law.Spends g tuples.length w w' (law.callsEach g.toGenerator 0 tuples) where
  asked_eq := by
    rw [askedRounds_callsEach, List.range_eq_range']
  cost_eq := by
    rw [askedRounds_callsEach, ← List.range_eq_range', sum_cost]
  position?_eq := by
    intro hlaw
    rw [hp.position?_eq hlaw, ← List.range_eq_range', sum_cost]

/-- So does a check that holds. -/
theorem check_spends [Inspectable α] {c : Config} (hc : c.skip = false)
    (hs : (law.check g.toGenerator c).value w = .success) :
    law.Spends g c.sampleSize w ((law.check g.toGenerator c).final w)
      ((law.check g.toGenerator c).events w) := by
  obtain ⟨tuples, t, hlength, hp⟩ := (check_eq_success_iff hc).1 hs
  have hend := check_of_ends (.held hc hlength hp)
  have hspends := hp.spends
  rw [hlength] at hspends
  -- the notice that the law holds asks for nothing
  have hasked : askedRounds (law.callsEach g.toGenerator 0 tuples ++
      [logged (.lawHeld law.name g.toGenerator.name c.sampleSize)]) =
        askedRounds (law.callsEach g.toGenerator 0 tuples) := by
    rw [askedRounds_append]
    exact List.append_nil _
  rw [Run.final, Run.events, hend]
  exact {
    asked_eq := hasked.trans hspends.asked_eq
    cost_eq := by
      rw [hasked]
      exact hspends.cost_eq
    position?_eq := hspends.position?_eq }

end Law

/-- **No draw is lost, made twice, or spent in an edge round.**  Whoever holds copies of a sequence
with at least one number, in whatever order they draw, the draw that is number `p` of all yields the
number at place `p` in turn.  A continuous generator draws nothing in the edge rounds and one number
for each of its places in every other round, whether or not it can build a value from them.  A
discrete generator draws one number if it has values, and never leaves their range.  So the rounds
that a check completes draw, for all values of all rounds but the first two, one number for each
place. -/
theorem draws_accounted [Inspectable α] {values : Array Float} {cell : Cell} {us : List (Use ω)}
    (hvalues : 0 < values.size) (hus : ∀ u ∈ us, u.Shares values cell) (w : World ω)
    (g : Continuous ω α) (d : Discrete β) (law : Law (World ω) α) :
    Source.InTurn values cell us w ∧
      (∀ round (w' : World ω), g.Draws round w') ∧
      (∀ round (w' : World ω), d.Draws round w') ∧
      (∀ tuples w', law.PassEach g.toGenerator 0 w tuples w' →
        law.Spends g tuples.length w w' (law.callsEach g.toGenerator 0 tuples)) ∧
      ∀ c : Config, c.skip = false → (law.check g.toGenerator c).value w = .success →
        law.Spends g c.sampleSize w ((law.check g.toGenerator c).final w)
          ((law.check g.toGenerator c).events w) := by
  refine ⟨Source.inTurn hvalues hus w, g.get_draws, d.get_draws, ?_, ?_⟩
  · intro tuples w' hp
    exact hp.spends
  · intro c hc hs
    exact Law.check_spends hc hs

/-! ### Three numbers that are passed on -/

namespace Relay

def values : Array Float := #[0.25, 0.5, 0.75]

def cell : Cell := ⟨0⟩

def source : Source := .sequence values cell

/-- Builds the number of its places. -/
def triples : Continuous Nat Nat := ⟨⟨0⟩, "Triples", 3, fun xs => pure xs.length, source⟩

def letters : Discrete String := ⟨⟨1⟩, "Letters", ["a", "b"], source⟩

/-- Two generators draw from one source, and another source is used in between. -/
def uses : List (Use Nat) :=
  [.draw source, .continuous triples 0, .draw (.sequence #[1.0] ⟨1⟩), .continuous triples 2,
    .discrete letters 0, .proceed (· + 1), .params triples 7]

/-- The law that numbers are small. -/
def small : Law (World Nat) Nat :=
  ⟨"small", 2, fun values => pure (values.all fun n => n ≤ 3)⟩

def config : Config := ⟨4, false, source⟩

def world : World Nat := .start (fun _ => 0.0) 0

theorem uses_share : ∀ u ∈ uses, u.Shares values cell := by
  intro u hu source' hs hc
  simp only [uses, List.mem_cons, List.not_mem_nil, or_false] at hu
  rcases hu with rfl | rfl | rfl | rfl | rfl | rfl | rfl
  · exact (Option.some.inj hs).symm
  · exact (Option.some.inj hs).symm
  · -- the other source has a cell of its own
    cases hs
    cases hc
  · exact (Option.some.inj hs).symm
  · exact (Option.some.inj hs).symm
  · cases hs
  · exact (Option.some.inj hs).symm

/-- Eight numbers are drawn from the source in turn, and a check of four rounds draws twelve. -/
theorem numbers_passed_on :
    0 < values.size ∧ (∀ u ∈ uses, u.Shares values cell) ∧
      Use.numbers cell uses world = [0.25, 0.5, 0.75, 0.25, 0.5, 0.75, 0.25, 0.5] ∧
      (Use.after uses world).cursors.position cell = 8 ∧
      config.skip = false ∧ (small.check triples.toGenerator config).value world = .success ∧
      ((small.check triples.toGenerator config).final world).cursors.position cell = 12 := by
  have hvalues : 0 < values.size := by decide
  have hcheck : (small.check triples.toGenerator config).value world = .success := by
    decide +kernel
  obtain ⟨hturn, -, -, -, hspends⟩ :=
    draws_accounted hvalues uses_share world triples letters small
  have hposition := (hspends config rfl hcheck).position?_eq fun _ _ => rfl
  exact ⟨hvalues, uses_share, rfl, hturn.position_eq, rfl, hcheck, Option.some.inj hposition⟩

end Relay

end Lawbook
