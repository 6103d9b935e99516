/-
Lawbook/Proofs/Registration.lean

Registration: what becomes of the calls that write a class, and of the registry that the class is
to join.

The calls come in any order.  What they write is stated in terms of the whole list of calls: all
parents that are named (`Draft.mentioned`), the last name (`Draft.lastName`), and the constraints
that stand, those since the last call that replaced all before it (`Draft.Standing`).  The induction
is on the list from its end, since each call changes what those before it have written.

Parents are looked up when the class is registered.  If all of them are there, the class joins as
the next one, with each parent once and in the order in which they were first named; otherwise the
first one that is missing is reported and nothing happens (`Registry.registers_written`).  So all
registries stay in order: every class has different parents, which were there before it, and no
class is above itself (`Desk.ordered_after`).

Main result: `Desk.registration_atomic`.
-/
import Lawbook.Proofs.Validations
import Mathlib.Data.List.Basic
import Mathlib.Data.List.Induction

namespace Lawbook

open Run

variable {κ σ α β : Type}

/-! ### First places in a list -/

/-- The members of a list are in the order of their first places. -/
theorem distinct_pairwise [DecidableEq β] (xs : List β) :
    (distinct xs).Pairwise fun x y => xs.idxOf x < xs.idxOf y := by
  induction xs using List.reverseRecOn with
  | nil => exact .nil
  | append_singleton xs x ih =>
    have hplace : ∀ y ∈ distinct xs, (xs ++ [x]).idxOf y = xs.idxOf y := fun y hy =>
      List.idxOf_append_of_mem (mem_distinct_iff.1 hy)
    have hold : (distinct xs).Pairwise fun y z => (xs ++ [x]).idxOf y < (xs ++ [x]).idxOf z := by
      apply ih.imp_of_mem
      intro y z hy hz hlt
      rwa [hplace y hy, hplace z hz]
    rw [distinct_append_singleton]
    split
    · exact hold
    · next hx =>
      -- a new member has its first place behind all the others
      apply List.pairwise_append.2
      refine ⟨hold, List.pairwise_singleton _ _, fun y hy z hz => ?_⟩
      obtain rfl := List.mem_singleton.1 hz
      have hnew : z ∉ xs := fun hz => hx (mem_distinct_iff.2 hz)
      rw [hplace y hy, List.idxOf_append_of_notMem hnew]
      exact Nat.lt_add_right _ (List.idxOf_lt_length_of_mem (mem_distinct_iff.1 hy))

/-! ### What calls write -/

namespace Draft

/-- The parents that a call names. -/
def Clause.parents : Clause σ α → List ClassId
  | extending parent => [parent]
  | extendingAll parents => parents
  | _ => []

/-- The name that a call gives. -/
def Clause.name? : Clause σ α → Option String
  | named name => some name
  | _ => none

/-- The constraint that a call imposes. -/
def Clause.constraint? : Clause σ α → Option (Constraint σ α)
  | requiring a => some a
  | requiringOnly a => some a
  | _ => none

/-- A call takes back all constraints before it. -/
def Clause.Replaces : Clause σ α → Prop
  | requiringOnly _ => True
  | _ => False

/-- All parents that calls name, in order. -/
def mentioned (clauses : List (Clause σ α)) : List ClassId :=
  clauses.flatMap Clause.parents

/-- The last name that calls give. -/
def lastName (clauses : List (Clause σ α)) : String :=
  (clauses.filterMap Clause.name?).getLast?.getD Class.unnamed

/-- The constraints that stand after some calls. -/
inductive Standing : List (Clause σ α) → List (Constraint σ α) → Prop
  /-- All of them, if none was taken back. -/
  | all {clauses : List (Clause σ α)} : (∀ clause ∈ clauses, ¬ clause.Replaces) →
      Standing clauses (clauses.filterMap Clause.constraint?)
  /-- Those since the last call that took all back, with the one that came with it. -/
  | since {before after : List (Clause σ α)} {a : Constraint σ α} :
      (∀ clause ∈ after, ¬ clause.Replaces) →
      Standing (before ++ .requiringOnly a :: after) (a :: after.filterMap Clause.constraint?)

variable {clauses : List (Clause σ α)} {clause : Clause σ α}
variable {constraints : List (Constraint σ α)}

theorem written_append (clauses : List (Clause σ α)) (clause : Clause σ α) :
    written (clauses ++ [clause]) = clause.apply (written clauses) := by
  rw [written, List.foldl_append]
  rfl

/-- The parents of a draft are those that its calls mention, in order and with repetitions. -/
theorem parents_written (clauses : List (Clause σ α)) :
    (written clauses).parents = mentioned clauses := by
  induction clauses using List.reverseRecOn with
  | nil => rfl
  | append_singleton clauses clause ih =>
    have hstep : (clause.apply (written clauses)).parents =
        (written clauses).parents ++ clause.parents := by
      cases clause with
      | extending parent => rfl
      | extendingAll parents => rfl
      | _ => exact (List.append_nil _).symm
    rw [written_append, hstep, ih, mentioned, mentioned, List.flatMap_append,
      List.flatMap_singleton]

/-- The last call that gives a name wins. -/
theorem name_written (clauses : List (Clause σ α)) :
    (written clauses).name = (clauses.filterMap Clause.name?).getLast? := by
  induction clauses using List.reverseRecOn with
  | nil => rfl
  | append_singleton clauses clause ih =>
    rw [written_append, List.filterMap_append]
    cases clause with
    | named name => exact List.getLast?_concat.symm
    | _ =>
      show (written clauses).name = (clauses.filterMap Clause.name? ++ []).getLast?
      rw [ih, List.append_nil]

theorem className_written (clauses : List (Clause σ α)) :
    (written clauses).className = lastName clauses := by
  rw [className, name_written, lastName]

/-- A call that takes nothing back adds its constraint, if it imposes one. -/
theorem constraints_apply (d : Draft σ α) (hc : ¬ clause.Replaces) :
    (clause.apply d).constraints = d.constraints ++ clause.constraint?.toList := by
  cases clause with
  | requiring a => rfl
  | requiringOnly a => exact absurd trivial hc
  | _ => exact (List.append_nil _).symm

/-- A call that takes nothing back leaves the constraints standing and adds its own. -/
theorem Standing.snoc (hs : Standing clauses constraints) (hc : ¬ clause.Replaces) :
    Standing (clauses ++ [clause]) (constraints ++ clause.constraint?.toList) := by
  have hsnoc : ∀ {clauses : List (Clause σ α)}, (∀ clause ∈ clauses, ¬ clause.Replaces) →
      ∀ other ∈ clauses ++ [clause], ¬ other.Replaces := by
    intro clauses hall other hother
    rcases List.mem_append.1 hother with hother | hother
    · exact hall other hother
    · rwa [List.mem_singleton.1 hother]
  have hadd : ∀ clauses : List (Clause σ α), clauses.filterMap Clause.constraint? ++
      clause.constraint?.toList = (clauses ++ [clause]).filterMap Clause.constraint? := by
    intro clauses
    rw [List.filterMap_append, List.filterMap_cons]
    cases clause.constraint? <;> rfl
  cases hs with
  | all hall =>
    rw [hadd]
    exact .all (hsnoc hall)
  | since hall =>
    rw [List.append_assoc, List.cons_append, List.cons_append, hadd]
    exact .since (hsnoc hall)

/-- The constraints of a draft are those that stand. -/
theorem standing_written (clauses : List (Clause σ α)) :
    Standing clauses (written clauses).constraints := by
  induction clauses using List.reverseRecOn with
  | nil => exact .all (fun clause hclause => absurd hclause List.not_mem_nil)
  | append_singleton clauses clause ih =>
    rw [written_append]
    by_cases hc : clause.Replaces
    · cases clause with
      | requiringOnly a => exact .since (fun clause hclause => absurd hclause List.not_mem_nil)
      | _ => exact hc.elim
    · rw [constraints_apply _ hc]
      exact ih.snoc hc

end Draft

/-! ### The constraint of a class -/

/-- The conjunction of verdicts.  One alone keeps its own report. -/
def Verdict.conjunction : List Verdict → Verdict
  | [v] => v
  | vs => (all vs).under Constraint.allHeading

/-- A conjunction of verdicts succeeds exactly if all of them do. -/
theorem Verdict.conjunction_eq_success_iff {vs : List Verdict} :
    conjunction vs = success ↔ ∀ v ∈ vs, v = success := by
  unfold conjunction
  split
  · rw [List.forall_mem_singleton]
  · exact under_eq_success_iff.trans all_eq_success_iff

variable [Inspectable α]

/-- A constraint asks for all of several constraints, and for nothing else. -/
structure Constraint.Conjoins (a : Constraint σ α) (parts : List (Constraint σ α)) : Prop where
  lawNames_eq : a.lawNames = parts.flatMap lawNames
  /-- They are checked one after the other, and their verdicts are joined. -/
  check_eq : ∀ g c, a.check g c = Verdict.conjunction <$> checkEach g c parts
  success_iff : ∀ g c s, (a.check g c).value s = .success ↔
    ∀ v ∈ (checkEach g c parts).value s, v = .success

omit [Inspectable α] in
theorem Constraint.lawNamesOfEach_eq (parts : List (Constraint σ α)) :
    lawNamesOfEach parts = parts.flatMap lawNames := by
  induction parts with
  | nil => rfl
  | cons part parts ih => rw [lawNamesOfEach, ih, List.flatMap_cons]

/-- Other than one, constraints are wrapped, and checked in turn. -/
theorem Constraint.check_all_eq {parts : List (Constraint σ α)} (hone : parts.length ≠ 1)
    (g : Generator σ α) (c : Config) :
    (all parts).check g c = Verdict.conjunction <$> checkEach g c parts := by
  rw [check]
  rcases parts with - | ⟨a, - | ⟨b, parts⟩⟩
  · rfl
  · exact absurd rfl hone
  · -- there are two verdicts at least, so the heading is put on
    rw [checkEach, checkEach]
    funext s
    simp [Verdict.conjunction]

/-- **The laws of a draft are the conjunction of its constraints**, whatever their number is. -/
theorem Draft.laws_conjoins (d : Draft σ α) : d.laws.Conjoins d.constraints := by
  have hcheck : ∀ g c, d.laws.check g c =
      Verdict.conjunction <$> Constraint.checkEach g c d.constraints := by
    intro g c
    -- no constraint and one constraint have branches of their own, which come to the same
    unfold laws
    split
    · next hnil =>
      rw [hnil]
      have hnone : ([] : List (Constraint σ α)).length ≠ 1 := Nat.zero_ne_one
      exact Constraint.check_all_eq hnone g c
    · next a hone =>
      rw [hone, Constraint.checkEach, Constraint.checkEach]
      funext s
      simp [Verdict.conjunction]
    · next hnil hone =>
      apply Constraint.check_all_eq
      intro hlength
      obtain ⟨a, ha⟩ := List.length_eq_one_iff.1 hlength
      exact hone a ha
  exact {
    lawNames_eq := d.lawNames_laws.trans (Constraint.lawNamesOfEach_eq _)
    check_eq := hcheck
    success_iff := by
      intro g c s
      rw [hcheck, value_map, Verdict.conjunction_eq_success_iff] }

/-! ### The class that is registered -/

/-- The class with a number is the one that calls write. -/
structure Class.WrittenBy (cls : Class σ α) (clauses : List (Draft.Clause σ α)) (id : ClassId) :
    Prop where
  name_eq : cls.name = Draft.lastName clauses
  /-- Each parent that is named is there once, in the order in which they were first named. -/
  parents_nodup : cls.parents.Nodup
  mem_parents_iff : ∀ p, p ∈ cls.parents ↔ p ∈ Draft.mentioned clauses
  parents_order : cls.parents.Pairwise fun p q =>
    (Draft.mentioned clauses).idxOf p < (Draft.mentioned clauses).idxOf q
  parents_lt : ∀ p ∈ cls.parents, p.index < id.index
  /-- It imposes the constraints that stand. -/
  laws_conjoins : ∃ constraints, Draft.Standing clauses constraints ∧ cls.laws.Conjoins constraints

theorem Draft.toClass_writtenBy (clauses : List (Clause σ α)) {id : ClassId}
    (hall : ∀ p ∈ mentioned clauses, p.index < id.index) :
    (written clauses).toClass.WrittenBy clauses id := by
  have hparents : (written clauses).toClass.parents = distinct (mentioned clauses) :=
    congrArg distinct (parents_written clauses)
  exact {
    name_eq := className_written clauses
    parents_nodup := distinct_nodup _
    mem_parents_iff := by
      intro p
      rw [hparents, mem_distinct_iff]
    parents_order := by
      rw [hparents]
      exact distinct_pairwise _
    parents_lt := by
      intro p hp
      rw [hparents, mem_distinct_iff] at hp
      exact hall p hp
    laws_conjoins := ⟨_, standing_written clauses, (written clauses).laws_conjoins⟩ }

namespace Registry

/-- The registry `r'` has one class more than `r`, which calls have written. -/
structure Adds (r : Registry σ α) (clauses : List (Draft.Clause σ α)) (id : ClassId)
    (r' : Registry σ α) : Prop where
  index_eq : id.index = r.hierarchy.size
  size_eq : r'.hierarchy.size = r.hierarchy.size + 1
  /-- The classes that are there stay as they are, and so do the records. -/
  class?_eq : ∀ d : ClassId, d.index < r.hierarchy.size →
    r'.hierarchy.class? d = r.hierarchy.class? d
  ledger_eq : r'.ledger = r.ledger
  added : ∃ cls, r'.hierarchy.class? id = some cls ∧ cls.WrittenBy clauses id

/-- What comes of registering the class that calls write. -/
structure Registers (r : Registry σ α) (clauses : List (Draft.Clause σ α))
    (outcome : Except ClassError ClassId × Registry σ α) : Prop where
  /-- It fails exactly if a parent that is named is not there. -/
  fails_iff : (∃ e, outcome.1 = .error e) ↔
    ∃ p ∈ Draft.mentioned clauses, r.hierarchy.size ≤ p.index
  /-- Then the first such parent is reported, and the registry is as it was. -/
  refused : ∀ e, outcome.1 = .error e → outcome.2 = r ∧ ∃ before p after,
    Draft.mentioned clauses = before ++ p :: after ∧
      (∀ q ∈ before, q.index < r.hierarchy.size) ∧ r.hierarchy.size ≤ p.index ∧
      e = .unknownParent (Draft.lastName clauses) p
  /-- Otherwise the class joins. -/
  added : ∀ id, outcome.1 = .ok id → r.Adds clauses id outcome.2

variable {r : Registry σ α} {d : Draft σ α} {clauses : List (Draft.Clause σ α)}

omit [Inspectable α] in
theorem register_of_error {e : ClassError} (he : r.hierarchy.register d = .error e) :
    r.register d = pure (.error e, r) := by
  rw [register, he]

omit [Inspectable α] in
theorem register_of_ok {h : Hierarchy σ α} (hh : r.hierarchy.register d = .ok h) (s : σ) :
    (r.register d).value s = (.ok r.hierarchy.nextId, { r with hierarchy := h }) := by
  rw [register, hh]
  rfl

omit [Inspectable α] in
/-- The host has no part in a registration. -/
theorem final_register (r : Registry σ α) (d : Draft σ α) (s : σ) :
    (r.register d).final s = s := by
  unfold register
  cases r.hierarchy.register d <;> rfl

omit [Inspectable α] in
/-- Where no parent is missing, all that are mentioned are there. -/
theorem lt_of_mem_mentioned (hn : r.hierarchy.missingParent? (.written clauses) = none)
    {p : ClassId} (hp : p ∈ Draft.mentioned clauses) : p.index < r.hierarchy.size := by
  rw [← Draft.parents_written, ← mem_distinct_iff] at hp
  exact Hierarchy.lt_of_missingParent?_eq_none hn p hp

/-- A class whose parents are all there joins. -/
theorem adds_push (hn : r.hierarchy.missingParent? (.written clauses) = none) :
    r.Adds clauses r.hierarchy.nextId
      ⟨r.hierarchy.push _ (Hierarchy.lt_of_missingParent?_eq_none hn), r.ledger⟩ where
  index_eq := rfl
  size_eq := Array.size_push _
  class?_eq := by
    intro d hd
    have hgrows := Hierarchy.grows_push r.hierarchy _ (Hierarchy.lt_of_missingParent?_eq_none hn)
    exact hgrows.class?_eq hd
  ledger_eq := rfl
  added := by
    refine ⟨_, Array.getElem?_push_size, ?_⟩
    apply Draft.toClass_writtenBy
    intro p hp
    exact lt_of_mem_mentioned hn hp

/-- Where no parent is missing, the class joins. -/
theorem registers_of_none (hn : r.hierarchy.missingParent? (.written clauses) = none) :
    r.Registers clauses (.ok r.hierarchy.nextId,
      ⟨r.hierarchy.push _ (Hierarchy.lt_of_missingParent?_eq_none hn), r.ledger⟩) where
  fails_iff := by
    apply iff_of_false
    · rintro ⟨e, ⟨⟩⟩
    · rintro ⟨p, hp, hlate⟩
      exact Nat.not_lt.2 hlate (lt_of_mem_mentioned hn hp)
  refused := nofun
  added := by
    rintro id ⟨⟩
    exact adds_push hn

/-- Where a parent is missing, the first one that is mentioned is reported, and nothing changes. -/
theorem registers_of_some {parent : ClassId}
    (hp : r.hierarchy.missingParent? (.written clauses) = some parent) :
    r.Registers clauses (.error (.unknownParent (Draft.lastName clauses) parent), r) := by
  rw [Hierarchy.missingParent?, Draft.parents_written, List.find?_eq_some_iff_append] at hp
  obtain ⟨hmissing, before, after, hsplit, hbefore⟩ := hp
  have hlate : r.hierarchy.size ≤ parent.index := of_decide_eq_true hmissing
  have hthere : ∀ q ∈ before, q.index < r.hierarchy.size := by
    intro q hq
    simpa using hbefore q hq
  have hmentioned : parent ∈ Draft.mentioned clauses := by
    rw [hsplit]
    exact List.mem_append_right _ List.mem_cons_self
  exact {
    fails_iff := iff_of_true ⟨_, rfl⟩ ⟨parent, hmentioned, hlate⟩
    refused := by
      rintro e ⟨⟩
      exact ⟨rfl, before, parent, after, hsplit, hthere, hlate, rfl⟩
    added := nofun }

/-- **A registration joins the class to the registry as it was written, or leaves the registry as it
was.** -/
theorem registers_written (r : Registry σ α) (clauses : List (Draft.Clause σ α)) (s : σ) :
    r.Registers clauses ((r.register (.written clauses)).value s) := by
  cases hn : r.hierarchy.missingParent? (.written clauses) with
  | some parent =>
    rw [register_of_error (Hierarchy.register_of_some hn), Draft.className_written]
    exact registers_of_some hn
  | none =>
    rw [register_of_ok (Hierarchy.register_of_none hn)]
    exact registers_of_none hn

/-- The first parent that is missing is reported, under a name that is given later. -/
example : ((empty : Registry Unit Nat).register
    (.written [.extending ⟨3⟩, .named "Pair", .extending ⟨1⟩])).value () =
      (.error (.unknownParent "Pair" ⟨3⟩), empty) := by rfl

end Registry

/-! ### Registries in order -/

omit [Inspectable α]

/-- The classes are in order. -/
structure Hierarchy.Ordered (h : Hierarchy σ α) : Prop where
  /-- Every class has different parents, all of which were there before it. -/
  parents_nodup : ∀ id cls, h.class? id = some cls → cls.parents.Nodup
  parents_lt : ∀ id cls, h.class? id = some cls → ∀ p ∈ cls.parents, p.index < id.index
  /-- No class is above itself. -/
  acyclic : ∀ id, ¬ Relation.TransGen h.Extends id id

namespace Hierarchy

variable {h h' : Hierarchy σ α} {d : Draft σ α}

/-- Numbers fall on the way up, so that there is no way back. -/
theorem ordered_of_nodup
    (hnodup : ∀ id cls, h.class? id = some cls → cls.parents.Nodup) : h.Ordered where
  parents_nodup := hnodup
  parents_lt := fun id cls hc => h.parents_lt id.index cls hc
  acyclic := fun _ ht => ne_of_transGen ht rfl

theorem ordered_empty : (empty : Hierarchy σ α).Ordered := by
  apply ordered_of_nodup
  intro id cls hc
  cases hc

/-- The class of a draft has different parents, and may join. -/
theorem Ordered.register (hh : h.Ordered) (hr : h.register d = .ok h') : h'.Ordered := by
  apply ordered_of_nodup
  intro id cls hc
  rcases class?_of_register hr hc with rfl | hold
  · exact distinct_nodup _
  · exact hh.parents_nodup id cls hold

/-- An operation keeps the hierarchy in order: it adds a class whose parents are there, or none. -/
theorem Ordered.joins (hh : h.Ordered) (q : Request κ σ α) : (q.joins h).Ordered := by
  cases q with
  | register d =>
    unfold Request.joins
    dsimp only
    cases hr : h.register d with
    | error e => exact hh
    | ok h' => exact hh.register hr
  | _ => exact hh

end Hierarchy

variable [Inspectable α] [DecidableEq κ]

namespace Desk

/-- After a request, a class may have joined. -/
theorem hierarchy_answer (desk : Desk κ σ α) (q : Request κ σ α) (s : σ) :
    ((desk.answer q).value s).registry.hierarchy = q.joins desk.registry.hierarchy := by
  cases hx : desk.validation? s q with
  | none => rw [(answer_of_validation?_eq_none hx).1]
  | some x =>
    obtain ⟨hregistry, -, hresult, -⟩ := answer_of_validation? hx
    rw [hresult]
    show x.registry.hierarchy = _
    rw [hregistry]
    cases q with
    | validate id g c => rfl
    | enroll key id g c => rfl
    | _ => cases hx

/-- A run of operations keeps the hierarchy in order, by induction on it. -/
theorem ordered_serve (desk : Desk κ σ α) (hd : desk.registry.hierarchy.Ordered)
    (qs : List (Request κ σ α)) (s : σ) :
    ((desk.serve qs).value s).registry.hierarchy.Ordered := by
  induction qs generalizing desk s with
  | nil => exact hd
  | cons q qs ih =>
    have hq : ((desk.answer q).value s).registry.hierarchy.Ordered := by
      rw [hierarchy_answer]
      exact hd.joins q
    exact ih _ hq ((desk.answer q).final s)

/-- **All registries stay in order.** -/
theorem ordered_after (qs : List (Request κ σ α)) (s : σ) :
    (after qs s).registry.hierarchy.Ordered :=
  ordered_serve empty Hierarchy.ordered_empty qs s

/-- **Registration is all or nothing, and keeps registries in order.**  Whatever was asked of a
registry before and whatever calls write the class: it joins as the next class, as it was written,
and all else stays; or a parent is not there, the first such one is reported, and all stays.  No
class ever comes to be above itself. -/
theorem registration_atomic (qs : List (Request κ σ α)) (s₀ s : σ)
    (clauses : List (Draft.Clause σ α)) :
    let r := (after qs s₀).registry
    let attempt := r.register (.written clauses)
    r.Registers clauses (attempt.value s) ∧ attempt.final s = s ∧ r.hierarchy.Ordered ∧
      (attempt.value s).2.hierarchy.Ordered := by
  intro r attempt
  have hr : r.hierarchy.Ordered := ordered_after qs s₀
  refine ⟨r.registers_written clauses s, r.final_register _ s, hr, ?_⟩
  -- the registration is one more request
  exact ordered_serve (after qs s₀) hr [.register (.written clauses)] s

end Desk

end Lawbook
