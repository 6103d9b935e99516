/-
Lawbook/Proofs/Connectives.lean

Connectives: constraints joined by AND, or by OR, in any grouping.

A constraint that is joined to another one is put next to it in a node of the connective, or, if the
left one is such a node already, behind the parts of that node.  So the tree that is built depends
on the grouping.  What it means does not, where the meaning of a constraint is its *trial*: whether
it holds, together with all that is done to find out.

The trial of a node goes through its parts (`trial_ofParts`), and a constraint has the trial of its
parts also if it is no such node and has only itself for a part (`inTurn_partsOf`).  To go through
two lists of parts, one after the other, is to go through both (`inTurn_append`).  So a join tries
one side and then the other one, whatever their shapes are, and a chain of joins tries its links.

Main result: `Connective.join_meaning`.
-/
import Lawbook.Constraint

namespace Lawbook

variable {σ α : Type}

/-- How two constraints are joined. -/
inductive Connective where
  | and
  | or
deriving DecidableEq, Repr

/-- Constraints that are joined two at a time, in some grouping. -/
inductive Chain (σ α : Type) where
  | link (a : Constraint σ α)
  | join (left right : Chain σ α)

namespace Connective

/-! ### Joining -/

/-- The join of two constraints. -/
def join : Connective → Constraint σ α → Constraint σ α → Constraint σ α
  | and, a, b => a.and b
  | or, a, b => a.or b

/-- The connective among truth values. -/
def truth : Connective → Bool → Bool → Bool
  | and, x, y => x && y
  | or, x, y => x || y

/-- The connective among any number of truth values. -/
def truthOfEach : Connective → List Bool → Bool
  | and, xs => xs.all id
  | or, xs => xs.any id

/-- The node of the connective with some parts. -/
def ofParts : Connective → List (Constraint σ α) → Constraint σ α
  | and, parts => .all parts
  | or, parts => .any parts

/-- What a constraint contributes to a node of the connective: its parts, if it is one, and else
itself. -/
def partsOf : Connective → Constraint σ α → List (Constraint σ α)
  | and, .all parts => parts
  | or, .any parts => parts
  | _, a => [a]

/-- A connective adds the right side to the parts of the left one, which are unwrapped if they were
joined by the same connective. -/
theorem join_eq_ofParts (k : Connective) (a b : Constraint σ α) :
    k.join a b = k.ofParts (k.partsOf a ++ [b]) := by
  cases k <;> cases a <;> rfl

theorem ofParts_partsOf_or (k : Connective) (a : Constraint σ α) :
    k.ofParts (k.partsOf a) = a ∨ k.partsOf a = [a] := by
  cases k <;> cases a <;> simp [ofParts, partsOf]

@[simp] theorem truthOfEach_singleton (k : Connective) (x : Bool) : k.truthOfEach [x] = x := by
  cases k <;> simp [truthOfEach]

/-- Truth over a list can be found in two parts. -/
theorem truthOfEach_append (k : Connective) (xs ys : List Bool) :
    k.truthOfEach (xs ++ ys) = k.truth (k.truthOfEach xs) (k.truthOfEach ys) := by
  cases k with
  | and => exact List.all_append
  | or => exact List.any_append

/-- The laws of two sides are listed in order, wrapped or not. -/
theorem lawNames_join (k : Connective) (a b : Constraint σ α) :
    (k.join a b).lawNames = a.lawNames ++ b.lawNames := by
  cases k with
  | and => exact Constraint.lawNames_and a b
  | or => exact Constraint.lawNames_or a b

end Connective

/-- The constraint that a chain builds up. -/
def Chain.constraint (k : Connective) : Chain σ α → Constraint σ α
  | link a => a
  | join left right => k.join (left.constraint k) (right.constraint k)

/-- The constraints of a chain, in order. -/
def Chain.links : Chain σ α → List (Constraint σ α)
  | link a => [a]
  | join left right => left.links ++ right.links

/-- The names of the laws of a chain are those of its links. -/
theorem Chain.lawNames_constraint (k : Connective) (t : Chain σ α) :
    (t.constraint k).lawNames = Constraint.lawNamesOfEach t.links := by
  induction t with
  | link a => simp [constraint, links, Constraint.lawNamesOfEach]
  | join left right ihl ihr =>
    rw [constraint, links, Connective.lawNames_join, ihl, ihr, Constraint.lawNamesOfEach_append]

/-! ### Trials -/

variable [Inspectable α] {g : Generator σ α} {c : Config}

/-- Whether a constraint holds, with all that is done to find out. -/
def Constraint.trial (g : Generator σ α) (c : Config) (a : Constraint σ α) :
    Run σ (Event α) Bool :=
  Verdict.isSuccess <$> a.check g c

section

variable (a : Constraint σ α) (s : σ)

@[simp] theorem Constraint.value_trial :
    (a.trial g c).value s = ((a.check g c).value s).isSuccess := rfl

@[simp] theorem Constraint.final_trial : (a.trial g c).final s = (a.check g c).final s := rfl

@[simp] theorem Constraint.events_trial : (a.trial g c).events s = (a.check g c).events s := rfl

end

/-- Two constraints with the same laws, for which the same is done and the same comes out, up to the
wording of reports. -/
structure Constraint.MeansSame (g : Generator σ α) (c : Config) (a a' : Constraint σ α) :
    Prop where
  lawNames_eq : a.lawNames = a'.lawNames
  events_eq : ∀ s, (a.check g c).events s = (a'.check g c).events s
  final_eq : ∀ s, (a.check g c).final s = (a'.check g c).final s
  isSuccess_eq : ∀ s, ((a.check g c).value s).isSuccess = ((a'.check g c).value s).isSuccess

/-- Constraints with the same laws and the same trial mean the same. -/
theorem Constraint.meansSame_of_trial_eq {a a' : Constraint σ α} (hnames : a.lawNames = a'.lawNames)
    (htrial : a.trial g c = a'.trial g c) : a.MeansSame g c a' where
  lawNames_eq := hnames
  events_eq s := by rw [← events_trial, htrial, events_trial]
  final_eq s := by rw [← final_trial, htrial, final_trial]
  isSuccess_eq s := by rw [← value_trial, htrial, value_trial]

/-- The verdicts on several constraints tell which of them hold. -/
theorem Constraint.map_isSuccess_checkEach (parts : List (Constraint σ α)) :
    List.map Verdict.isSuccess <$> checkEach g c parts = parts.mapM (trial g c) := by
  induction parts with
  | nil => rfl
  | cons a parts ih =>
    rw [List.mapM_cons, ← ih]
    funext s
    simp [checkEach, trial]

namespace Connective

/-- Whether constraints hold under a connective, each of them tried. -/
def inTurn (k : Connective) (g : Generator σ α) (c : Config) (parts : List (Constraint σ α)) :
    Run σ (Event α) Bool :=
  k.truthOfEach <$> parts.mapM (Constraint.trial g c)

@[simp] theorem inTurn_singleton (k : Connective) (a : Constraint σ α) :
    k.inTurn g c [a] = a.trial g c := by
  simp [inTurn]

/-- To go through constraints and then through others is to go through all of them. -/
theorem inTurn_append (k : Connective) (as bs : List (Constraint σ α)) :
    k.inTurn g c (as ++ bs) = do
      let x ← k.inTurn g c as
      let y ← k.inTurn g c bs
      return k.truth x y := by
  funext s
  simp [inTurn, List.mapM_append, truthOfEach_append]

/-- **A node tries its parts in turn**, and the heading of a report does not count. -/
theorem trial_ofParts (k : Connective) (parts : List (Constraint σ α)) :
    (k.ofParts parts).trial g c = k.inTurn g c parts := by
  rw [inTurn, ← Constraint.map_isSuccess_checkEach, ← comp_map]
  cases k with
  | and =>
    funext s
    simp [Constraint.trial, ofParts, Constraint.check, Verdict.isSuccess_all, truthOfEach]
  | or =>
    funext s
    simp [Constraint.trial, ofParts, Constraint.check, Verdict.isSuccess_any, truthOfEach]

/-- A constraint is tried by its parts, also if it has only itself for a part. -/
theorem inTurn_partsOf (k : Connective) (a : Constraint σ α) :
    k.inTurn g c (k.partsOf a) = a.trial g c := by
  rcases k.ofParts_partsOf_or a with hnode | hsingle
  · rw [← trial_ofParts, hnode]
  · rw [hsingle, inTurn_singleton]

/-- **A join tries one side and then the other one.** -/
theorem trial_join (k : Connective) (a b : Constraint σ α) :
    (k.join a b).trial g c = do
      let x ← a.trial g c
      let y ← b.trial g c
      return k.truth x y := by
  rw [join_eq_ofParts, trial_ofParts, inTurn_append, inTurn_partsOf, inTurn_singleton]

/-- **A chain tries its links in turn.** -/
theorem trial_chain (k : Connective) (t : Chain σ α) :
    (t.constraint k).trial g c = k.inTurn g c t.links := by
  induction t with
  | link a => rw [Chain.constraint, Chain.links, inTurn_singleton]
  | join left right ihl ihr =>
    rw [Chain.constraint, Chain.links, trial_join, inTurn_append, ihl, ihr]

/-- What the join of two constraints means, for a check that starts in the host state `s`. -/
structure Composes (k : Connective) (a b : Constraint σ α) (g : Generator σ α) (c : Config)
    (s : σ) : Prop where
  lawNames_eq : (k.join a b).lawNames = a.lawNames ++ b.lawNames
  /-- Values are asked for and predicates are called as in a check of the one and then, in the state
  that is left, of the other. -/
  events_eq : ((k.join a b).check g c).events s =
    (a.check g c).events s ++ (b.check g c).events ((a.check g c).final s)
  final_eq : ((k.join a b).check g c).final s = (b.check g c).final ((a.check g c).final s)
  isSuccess_eq : (((k.join a b).check g c).value s).isSuccess =
    k.truth ((a.check g c).value s).isSuccess
      ((b.check g c).value ((a.check g c).final s)).isSuccess

/-- **Both connectives compose the checks of their sides**, the left one first. -/
theorem composes (k : Connective) (a b : Constraint σ α) (g : Generator σ α) (c : Config) (s : σ) :
    k.Composes a b g c s where
  lawNames_eq := k.lawNames_join a b
  events_eq := by
    rw [← Constraint.events_trial, trial_join]
    simp
  final_eq := by
    rw [← Constraint.final_trial, trial_join]
    simp
  isSuccess_eq := by
    rw [← Constraint.value_trial, trial_join]
    simp

/-- **Joins compose what their sides mean, and chains of joins mean the same in any grouping.**  The
join of two constraints has the laws of both, does what a check of the one and then of the other
does, and succeeds as the connective says of the two; so what a chain means depends on the order of
its links and on nothing else. -/
theorem join_meaning (k : Connective) (g : Generator σ α) (c : Config) :
    (∀ a b s, k.Composes a b g c s) ∧
      ∀ t t' : Chain σ α, t.links = t'.links →
        (t.constraint k).MeansSame g c (t'.constraint k) := by
  refine ⟨fun a b s => k.composes a b g c s, fun t t' hlinks => ?_⟩
  apply Constraint.meansSame_of_trial_eq
  · rw [Chain.lawNames_constraint, hlinks, ← Chain.lawNames_constraint]
  · rw [trial_chain, hlinks, ← trial_chain]

end Connective

/-! ### A choice in two groupings -/

namespace Switches

instance : Inspectable Bool := ⟨Inspect.bool⟩

/-- A switch that changes its position whenever it is asked for it. -/
def switch : Generator Bool Bool := ⟨⟨0⟩, "Switch", fun _ position => (.ok position, !position)⟩

/-- The law that the switch is on. -/
def on : Law Bool Bool := ⟨"on", 1, fun values => pure (values.all id)⟩

/-- The law that the switch is off. -/
def off : Law Bool Bool := ⟨"off", 1, fun values => pure (values.all not)⟩

/-- The first two links are joined first, and an empty choice takes in what follows. -/
def leftward : Chain Bool Bool :=
  .join (.join (.link (.any [])) (.link (.obeys on))) (.link (.obeys off))

/-- The last two links are joined first. -/
def rightward : Chain Bool Bool :=
  .join (.link (.any [])) (.join (.link (.obeys on)) (.link (.obeys off)))

/-- Different trees are built up, which mean the same. -/
theorem leftward_means_rightward : leftward.constraint .or = .any [.obeys on, .obeys off] ∧
    rightward.constraint .or = .any [.any [.obeys on, .obeys off]] ∧
      leftward.links = rightward.links ∧
        (leftward.constraint .or).MeansSame switch ⟨4, false, .ambient⟩
          (rightward.constraint .or) :=
  ⟨rfl, rfl, rfl, (Connective.join_meaning .or switch ⟨4, false, .ambient⟩).2 _ _ rfl⟩

end Switches

end Lawbook
