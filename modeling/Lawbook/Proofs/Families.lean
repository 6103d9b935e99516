/-
Lawbook/Proofs/Families.lean

Families: the algebraic laws, and what a check of them finds.

The laws are callbacks that call other callbacks, one after the other.  Where equality, operation
and neutral value are plain functions (`Operations`), each of them comes to a formula, and its
predicate decides that formula (`Operations.exists_law`).  So each is exact on the tuples that are
drawn, and a family holds if all of its members do.

A registry relates a record to one check of the laws of the class and to the records of its parents.
So if the laws of a class and of all its ancestors hold whenever they are checked, the class is
recorded as holding (`Audited.eq_success_of_laws`), whatever was recorded before.  This is how the
classes of an equality, of a semigroup and of a monoid hold for each structure that is a monoid up
to an equivalence.

Main result: `Operations.families_exact`.
-/
import Lawbook.Law.Families
import Lawbook.Proofs.Account
import Lawbook.Proofs.Samples

namespace Lawbook

open Event Run

variable {κ σ α : Type}

/-! ### Properties of operations -/

/-- An equality, an operation and a neutral value. -/
structure Operations (α : Type) where
  eq : α → α → Bool
  combine : α → α → α
  empty : α

/-- The algebraic properties that there are laws for. -/
inductive Property where
  | reflexivity
  | symmetry
  | transitivity
  | associativity
  | commutativity
  | leftIdentity
  | rightIdentity

namespace Property

/-- The name of the law. -/
def name : Property → String
  | reflexivity => "reflexivity"
  | symmetry => "symmetry"
  | transitivity => "transitivity"
  | associativity => "associativity"
  | commutativity => "commutativity"
  | leftIdentity => "left_identity"
  | rightIdentity => "right_identity"

/-- How many values the property is about. -/
def arity : Property → Nat
  | reflexivity => 1
  | symmetry => 2
  | transitivity => 3
  | associativity => 3
  | commutativity => 2
  | leftIdentity => 1
  | rightIdentity => 1

/-- The property of a tuple, for given operations. -/
def HoldsOf (ops : Operations α) : Property → List α → Prop
  | reflexivity, [a] => ops.eq a a
  | symmetry, [a, b] => ops.eq a b ↔ ops.eq b a
  | transitivity, [a, b, c] => ops.eq a b → ops.eq b c → ops.eq a c
  | associativity, [a, b, c] =>
    ops.eq (ops.combine (ops.combine a b) c) (ops.combine a (ops.combine b c))
  | commutativity, [a, b] => ops.eq (ops.combine a b) (ops.combine b a)
  | leftIdentity, [a] => ops.eq (ops.combine ops.empty a) a
  | rightIdentity, [a] => ops.eq (ops.combine a ops.empty) a
  | _, _ => False

end Property

namespace Operations

/-- Equality as a callback. -/
def eqCall (ops : Operations α) (a b : α) : Callback σ Bool :=
  pure (ops.eq a b)

/-- The operation as a callback. -/
def combineCall (ops : Operations α) (a b : α) : Callback σ α :=
  pure (ops.combine a b)

/-- The law of a property. -/
def constraint (ops : Operations α) : Property → Constraint σ α
  | .reflexivity => Families.reflexivity ops.eqCall
  | .symmetry => Families.symmetry ops.eqCall
  | .transitivity => Families.transitivity ops.eqCall
  | .associativity => Families.associativity ops.combineCall ops.eqCall
  | .commutativity => Families.commutativity ops.combineCall ops.eqCall
  | .leftIdentity => Families.leftIdentity (pure ops.empty) ops.combineCall ops.eqCall
  | .rightIdentity => Families.rightIdentity (pure ops.empty) ops.combineCall ops.eqCall

/-- The predicate of each law decides its property. -/
theorem exists_law (ops : Operations α) (p : Property) : ∃ law : Law σ α,
    ops.constraint p = .obeys law ∧ law.name = p.name ∧ law.arity = p.arity ∧
      law.Decides (p.HoldsOf ops) := by
  cases p with
  | reflexivity =>
    refine ⟨_, rfl, rfl, rfl, fun values hlen => ?_⟩
    obtain ⟨a, rfl⟩ := List.length_eq_one_iff.1 hlen
    exact ⟨ops.eq a a, fun _ => rfl, .rfl⟩
  | symmetry =>
    refine ⟨_, rfl, rfl, rfl, fun values hlen => ?_⟩
    obtain ⟨a, b, rfl⟩ := List.length_eq_two.1 hlen
    refine ⟨ops.eq a b == ops.eq b a, fun _ => rfl, ?_⟩
    rw [beq_iff_eq]
    exact Bool.eq_iff_iff
  | transitivity =>
    refine ⟨_, rfl, rfl, rfl, fun values hlen => ?_⟩
    obtain ⟨a, b, c, rfl⟩ := List.length_eq_three.1 hlen
    -- the predicate asks on only as long as the premises hold
    refine ⟨if ops.eq a b then if ops.eq b c then ops.eq a c else true else true, ?_, ?_⟩
    · intro s
      show ((if ops.eq a b then _ else _ : Callback σ Bool) s) = _
      cases ops.eq a b
      · rfl
      · show ((if ops.eq b c then _ else _ : Callback σ Bool) s) = _
        cases ops.eq b c <;> rfl
    · show _ ↔ (ops.eq a b = true → ops.eq b c = true → ops.eq a c = true)
      cases ops.eq a b <;> cases ops.eq b c <;> simp
  | associativity =>
    refine ⟨_, rfl, rfl, rfl, fun values hlen => ?_⟩
    obtain ⟨a, b, c, rfl⟩ := List.length_eq_three.1 hlen
    exact ⟨_, fun _ => rfl, .rfl⟩
  | commutativity =>
    refine ⟨_, rfl, rfl, rfl, fun values hlen => ?_⟩
    obtain ⟨a, b, rfl⟩ := List.length_eq_two.1 hlen
    exact ⟨_, fun _ => rfl, .rfl⟩
  | leftIdentity =>
    refine ⟨_, rfl, rfl, rfl, fun values hlen => ?_⟩
    obtain ⟨a, rfl⟩ := List.length_eq_one_iff.1 hlen
    exact ⟨_, fun _ => rfl, .rfl⟩
  | rightIdentity =>
    refine ⟨_, rfl, rfl, rfl, fun values hlen => ?_⟩
    obtain ⟨a, rfl⟩ := List.length_eq_one_iff.1 hlen
    exact ⟨_, fun _ => rfl, .rfl⟩

variable [Inspectable α] (ops : Operations α) {g : Generator σ α}

/-- Each law is exact for its property on the tuples of a generator that never fails. -/
theorem exactOn {c : Config} (hg : g.NeverFails) (hc : c.skip = false) (p : Property) (s : σ) :
    ∃ drawn, (ops.constraint p).ExactOn p.name p.arity (p.HoldsOf ops) g c s drawn := by
  obtain ⟨law, hlaw, hname, harity, hdecides⟩ := ops.exists_law p (σ := σ)
  have hpos : law.arity ≠ 0 := by
    rw [harity]
    cases p <;> decide
  rw [hlaw, ← hname, ← harity]
  exact hdecides.exactOn hpos hg hc s

end Operations

/-! ### Families -/

/-- The families of laws. -/
inductive Family where
  | equality
  | semigroup
  | monoid

/-- The properties whose laws make up a family. -/
def Family.members : Family → List Property
  | equality => [.reflexivity, .symmetry, .transitivity]
  | semigroup => [.associativity]
  | monoid => [.leftIdentity, .rightIdentity]

namespace Operations

/-- The laws of a family. -/
def laws (ops : Operations α) : Family → Constraint σ α
  | .equality => Families.eqLaws ops.eqCall
  | .semigroup => Families.semigroupLaws ops.combineCall ops.eqCall
  | .monoid => Families.monoidLaws (pure ops.empty) ops.combineCall ops.eqCall

/-- The equality is an equivalence, and the operation and the neutral value are a monoid up to
it. -/
structure Lawful (ops : Operations α) : Prop where
  equivalence : Equivalence fun a b => ops.eq a b = true
  assoc : ∀ a b c,
    ops.eq (ops.combine (ops.combine a b) c) (ops.combine a (ops.combine b c)) = true
  empty_combine : ∀ a, ops.eq (ops.combine ops.empty a) a = true
  combine_empty : ∀ a, ops.eq (ops.combine a ops.empty) a = true

variable {ops : Operations α} {p : Property} {f : Family}

/-- Lawful operations have the properties of all families. -/
theorem Lawful.holdsOf (hops : ops.Lawful) (hp : p ∈ f.members) {values : List α}
    (hlen : values.length = p.arity) : p.HoldsOf ops values := by
  cases p with
  | reflexivity =>
    obtain ⟨a, rfl⟩ := List.length_eq_one_iff.1 hlen
    exact hops.equivalence.refl a
  | symmetry =>
    obtain ⟨a, b, rfl⟩ := List.length_eq_two.1 hlen
    exact ⟨hops.equivalence.symm, hops.equivalence.symm⟩
  | transitivity =>
    obtain ⟨a, b, c, rfl⟩ := List.length_eq_three.1 hlen
    exact hops.equivalence.trans
  | associativity =>
    obtain ⟨a, b, c, rfl⟩ := List.length_eq_three.1 hlen
    exact hops.assoc a b c
  -- no family has it among its members
  | commutativity => cases f <;> simp [Family.members] at hp
  | leftIdentity =>
    obtain ⟨a, rfl⟩ := List.length_eq_one_iff.1 hlen
    exact hops.empty_combine a
  | rightIdentity =>
    obtain ⟨a, rfl⟩ := List.length_eq_one_iff.1 hlen
    exact hops.combine_empty a

end Operations

section Checks

variable [Inspectable α] (g : Generator σ α) (c : Config) (s : σ)

/-- A conjunction holds exactly if all its parts do, checked one after the other. -/
theorem Constraint.check_all_eq_success_iff (parts : List (Constraint σ α)) :
    ((all parts).check g c).value s = .success ↔
      ∀ v ∈ (checkEach g c parts).value s, v = .success := by
  rw [check]
  exact Verdict.under_eq_success_iff.trans Verdict.all_eq_success_iff

theorem Constraint.value_checkEach_singleton (a : Constraint σ α) :
    (checkEach g c [a]).value s = [(a.check g c).value s] := by
  rw [checkEach, checkEach]
  rfl

variable {g c}

/-- If each of several constraints holds whenever it is checked, all of them hold. -/
theorem Constraint.checkEach_eq_success {parts : List (Constraint σ α)}
    (hp : ∀ a ∈ parts, ∀ s, (a.check g c).value s = .success) :
    ∀ v ∈ (checkEach g c parts).value s, v = .success := by
  induction parts generalizing s with
  | nil =>
    rw [checkEach]
    exact List.forall_mem_nil _
  | cons a parts ih =>
    obtain ⟨ha, hparts⟩ := List.forall_mem_cons.1 hp
    rw [checkEach]
    exact List.forall_mem_cons.2 ⟨ha s, ih _ hparts⟩

namespace Operations

/-- The laws of a family hold exactly if each of its members does. -/
theorem check_laws_eq_success_iff (ops : Operations α) (f : Family) (g : Generator σ α)
    (c : Config) (s : σ) : ((ops.laws f).check g c).value s = .success ↔
      ∀ v ∈ (Constraint.checkEach g c (f.members.map ops.constraint)).value s, v = .success := by
  cases f with
  | equality => exact Constraint.check_all_eq_success_iff g c s _
  | semigroup =>
    have hone := Constraint.value_checkEach_singleton g c s (ops.constraint .associativity)
    show ((ops.constraint .associativity).check g c).value s = .success ↔
      ∀ v ∈ (Constraint.checkEach g c [ops.constraint .associativity]).value s, v = .success
    rw [hone, List.forall_mem_singleton]
  | monoid => exact Constraint.check_all_eq_success_iff g c s _

/-- Whatever generator that never fails is asked, lawful operations pass the laws of all families,
and so do they where checks are skipped. -/
theorem Lawful.check_laws {ops : Operations α} (hops : ops.Lawful) (hg : g.NeverFails) (f : Family)
    (c : Config) (s : σ) : ((ops.laws f).check g c).value s = .success := by
  rw [check_laws_eq_success_iff]
  refine Constraint.checkEach_eq_success s fun a ha s => ?_
  obtain ⟨p, hp, rfl⟩ := List.mem_map.1 ha
  obtain ⟨law, hlaw, -, harity, hdecides⟩ := ops.exists_law p (σ := σ)
  rw [hlaw, Constraint.check_obeys]
  exact hdecides.check_eq_success (fun values hlen => hops.holdsOf hp (hlen.trans harity)) hg c s

end Operations

end Checks

/-! ### Classes whose laws always hold -/

section Registries

variable [Inspectable α] {Asks : Generator σ α → Config → Prop} {r : Registry σ α}
variable {es : List (Event α)} {k : GeneratorId} {id : ClassId} {v : Verdict}

/-- **A class is recorded as holding if its laws and those of its ancestors hold** in each check
that may have been made for the generator. -/
theorem Audited.eq_success_of_laws (ha : Audited Asks r es)
    (hlaws : ∀ d cls, r.hierarchy.Descends id d → r.hierarchy.class? d = some cls →
      ∀ g c s, Asks g c → g.id = k → (cls.laws.check g c).value s = .success)
    (hv : r.ledger.verdict? k id = some v) : v = .success := by
  induction id using Hierarchy.parents_induction (h := r.hierarchy) generalizing v with
  | step id ih =>
    obtain ⟨g, c, s, cls, hk, hasks, hacc⟩ := ha.accounted k id v hv
    refine hacc.eq_success_iff.2 ⟨hlaws id cls .refl hacc.class?_eq g c s hasks hk, ?_⟩
    intro p hp
    obtain ⟨w, hw⟩ := Option.isSome_iff_exists.1 (hacc.parents_isSome hp)
    rw [hk] at hw ⊢
    rw [hw, ih p hp (fun d cls hd => hlaws d cls (.of_parent hp hd)) hw]

/-- A request succeeds if the laws of the class and of its ancestors hold in each check for the
generator, those of earlier requests included. -/
theorem Desk.validate_eq_success_of_laws [DecidableEq κ] (qs : List (Request κ σ α)) (s₀ s : σ)
    {g : Generator σ α} {c : Config}
    (hid : id.index < (Desk.after qs s₀).registry.hierarchy.size)
    (hlaws : ∀ d cls, (Desk.after qs s₀).registry.hierarchy.Descends id d →
      (Desk.after qs s₀).registry.hierarchy.class? d = some cls →
      ∀ g' c' s', (Asked qs g' c' ∨ (g' = g ∧ c' = c)) → g'.id = g.id →
        (cls.laws.check g' c').value s' = .success) :
    (((Desk.after qs s₀).registry.validate id g c).value s).1 = .success := by
  obtain ⟨plan, hp⟩ := Registry.validate_settles (Desk.after qs s₀).registry id g c s hid
  have ha := (Desk.after_audited qs s₀).validate id g c s
  rw [← hp.hierarchy_eq] at hlaws
  exact ha.eq_success_of_laws hlaws hp.recorded

/-! ### The tower of an equality, a semigroup and a monoid -/

/-- The family of the class that the class of a family extends. -/
def Family.base? : Family → Option Family
  | equality => none
  | semigroup => some equality
  | monoid => some semigroup

/-- There is a class for each family, with its laws for some operations, and each extends the one
below it.  The classes may have any names. -/
def Operations.Tower (ops : Operations α) (h : Hierarchy σ α) (ids : Family → ClassId) : Prop :=
  ∀ f, ∃ name, h.class? (ids f) = some ⟨name, (f.base?.map ids).toList, ops.laws f⟩

namespace Operations.Tower

variable {ops : Operations α} {h : Hierarchy σ α} {ids : Family → ClassId} {f : Family}
variable {d : ClassId} {cls : Class σ α}

omit [Inspectable α] in
theorem lt_size (ht : ops.Tower h ids) (f : Family) : (ids f).index < h.size := by
  obtain ⟨_, hc⟩ := ht f
  exact Hierarchy.lt_size_of_class? hc

omit [Inspectable α] in
/-- Nothing but classes of the tower is above a class of the tower. -/
theorem exists_eq_of_descends (ht : ops.Tower h ids) (hd : h.Descends (ids f) d) :
    ∃ f', d = ids f' := by
  induction hd with
  | refl => exact ⟨f, rfl⟩
  | tail _ he ih =>
    obtain ⟨f', rfl⟩ := ih
    obtain ⟨_, hc⟩ := ht f'
    rw [Hierarchy.Extends, Hierarchy.parentsOf_eq hc, Option.mem_toList, Option.map_eq_some_iff]
      at he
    obtain ⟨base, -, rfl⟩ := he
    exact ⟨base, rfl⟩

omit [Inspectable α] in
/-- A class of the tower and each ancestor of one has the laws of a family. -/
theorem exists_laws_eq (ht : ops.Tower h ids) (hd : h.Descends (ids f) d)
    (hcls : h.class? d = some cls) : ∃ f', cls.laws = ops.laws f' := by
  obtain ⟨f', rfl⟩ := ht.exists_eq_of_descends hd
  obtain ⟨_, hc⟩ := ht f'
  rw [hc] at hcls
  cases hcls
  exact ⟨f', rfl⟩

end Operations.Tower

/-- **The law families are exact on their samples.**  For all operations, and a generator that
never fails, the law of each property succeeds exactly if the property holds of all tuples that its
rounds draw, and shows the first of which it does not; and a family holds exactly if all its members
do.  If the equality is an equivalence and the rest a monoid up to it, then after any run of
operations with a tower of these families in the registry, each class of the tower is validated
successfully, provided that no generator that was asked under the same identity ever fails. -/
theorem Operations.families_exact [DecidableEq κ] (ops : Operations α) (g : Generator σ α)
    (c : Config) (hg : g.NeverFails) (hc : c.skip = false) :
    (∀ p s, ∃ drawn,
      (ops.constraint p).ExactOn p.name p.arity (p.HoldsOf ops) g c s drawn) ∧
    (∀ f s, ((ops.laws f).check g c).value s = .success ↔
      ∀ v ∈ (Constraint.checkEach g c (f.members.map ops.constraint)).value s, v = .success) ∧
    (ops.Lawful → ∀ (qs : List (Request κ σ α)) (s₀ : σ) (ids : Family → ClassId),
      ops.Tower (Desk.after qs s₀).registry.hierarchy ids →
      (∀ g' c', Asked qs g' c' → g'.id = g.id → g'.NeverFails) →
      ∀ f s, (((Desk.after qs s₀).registry.validate (ids f) g c).value s).1 = .success) := by
  refine ⟨ops.exactOn hg hc, fun f s => ops.check_laws_eq_success_iff f g c s, ?_⟩
  intro hops qs s₀ ids ht hqs f s
  refine Desk.validate_eq_success_of_laws qs s₀ s (ht.lt_size f) ?_
  intro d cls hd hcls g' c' s' hasked hk
  obtain ⟨f', hf⟩ := ht.exists_laws_eq hd hcls
  have hg' : g'.NeverFails := by
    rcases hasked with hasked | ⟨rfl, rfl⟩
    · exact hqs g' c' hasked hk
    · exact hg
  rw [hf]
  exact hops.check_laws hg' f' c' s'

end Registries

/-! ### Hours of the clock -/

namespace Clock

/-- The numbers of hours, which are equal if they differ by full turns. -/
def hours : Operations Nat := ⟨fun a b => a % 12 == b % 12, (· + ·), 12⟩

theorem hours_lawful : hours.Lawful where
  equivalence := by
    refine ⟨fun a => beq_self_eq_true _, fun hab => ?_, fun hab hbc => ?_⟩
    · exact beq_iff_eq.2 (beq_iff_eq.1 hab).symm
    · exact beq_iff_eq.2 ((beq_iff_eq.1 hab).trans (beq_iff_eq.1 hbc))
  assoc := fun a b c => beq_iff_eq.2 (congrArg (· % 12) (Nat.add_assoc a b c))
  empty_combine := fun a => beq_iff_eq.2 (Nat.add_mod_left 12 a)
  combine_empty := fun a => beq_iff_eq.2 (Nat.add_mod_right a 12)

/-- Yields the hour it is, and lets some time pass. -/
def watch : Generator Nat Nat := ⟨⟨0⟩, "Watch", fun i s => (.ok s, s + i + 5)⟩

theorem watch_neverFails : watch.NeverFails :=
  fun _ s => ⟨s, _, rfl⟩

def config : Config := ⟨4, false, .ambient⟩

/-- Differences of hours are not associative, and the first three hours show it. -/
example : (((⟨hours.eq, (· - ·), 12⟩ : Operations Nat).laws .semigroup).check watch config).value 9 =
    .failure "Predicate associativity failed with params 9, 14, 19" := by
  decide +kernel

/-- The tower joins a registry, and its semigroup is validated. -/
def requests : List (Request Unit Nat Nat) :=
  [.register ⟨some "Eq", [], [hours.laws .equality]⟩,
   .register ⟨some "Semigroup", [⟨0⟩], [hours.laws .semigroup]⟩,
   .register ⟨some "Monoid", [⟨1⟩], [hours.laws .monoid]⟩,
   .validate ⟨1⟩ watch config]

/-- The classes in the order of their registration. -/
def ids : Family → ClassId
  | .equality => ⟨0⟩
  | .semigroup => ⟨1⟩
  | .monoid => ⟨2⟩

theorem hours_tower : hours.Tower (Desk.after requests 0).registry.hierarchy ids
  | .equality => ⟨"Eq", rfl⟩
  | .semigroup => ⟨"Semigroup", rfl⟩
  | .monoid => ⟨"Monoid", rfl⟩

/-- The hours are a monoid for the watch, whenever it is asked. -/
theorem hours_validated : watch.NeverFails ∧ config.skip = false ∧ ∀ s,
    (((Desk.after requests 0).registry.validate ⟨2⟩ watch config).value s).1 = .success := by
  have hexact := Operations.families_exact (κ := Unit) hours watch config watch_neverFails rfl
  have hasked : ∀ g c, Asked requests g c → g.id = watch.id → g.NeverFails := by
    intro g c hasked _
    simp only [Asked, requests, List.mem_cons, List.not_mem_nil, or_false, exists_eq_or_imp,
      exists_eq_left, Request.asks?, Option.some_inj, Prod.mk.injEq, reduceCtorEq, false_or]
      at hasked
    exact hasked.1 ▸ watch_neverFails
  exact ⟨watch_neverFails, rfl, hexact.2.2 hours_lawful requests 0 ids hours_tower hasked .monoid⟩

end Clock

end Lawbook
