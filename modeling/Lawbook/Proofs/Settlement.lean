/-
Lawbook/Proofs/Settlement.lean

Settlement: what a walk through a hierarchy leaves behind, one class after the other.

A walk marks classes, looks verdicts up and goes to parents first, but all that lasts of it are the
classes that it settles.  To settle a class is to check its own laws and to record what these and
the verdicts on its parents come to.  It happens only where nothing is recorded yet, and only once
all parents are recorded.  `Settles` is a sequence of such steps; the list of the classes settled
is its plan.

Main results, each by induction over the steps: a plan has each class once (`Settles.nodup`), no
class before one of its parents (`Settles.ordered`), and only classes without a record
(`Settles.fresh`); the records afterwards are those before and those of the plan
(`Settles.isSome_iff`), and no record changes (`Settles.keeps`).  What the walk does to the host is
to run the laws of the plan in turn, and nothing else (`RunsLaws`, `Settles.runsLaws`).
-/
import Lawbook.Proofs.Ancestry
import Lawbook.Proofs.Checks
import Mathlib.Data.List.Forall2

namespace Lawbook

open Event

variable {σ α : Type}

/-! ### Marks -/

namespace Survey

/-- The survey after an arrival at a class. -/
def mark (id : ClassId) (s : Survey σ) : Survey σ :=
  if id ∈ s.visited then s else { s with visited := id :: s.visited }

@[simp] theorem host_mark (id : ClassId) (s : Survey σ) : (s.mark id).host = s.host := by
  unfold mark
  split <;> rfl

@[simp] theorem ledger_mark (id : ClassId) (s : Survey σ) : (s.mark id).ledger = s.ledger := by
  unfold mark
  split <;> rfl

/-- An arrival tells whether it is the first one, and marks the class. -/
theorem arrive_apply (id : ClassId) (s : Survey σ) :
    (arrive id : Run (Survey σ) (Event α) Bool) s = (decide (id ∉ s.visited), s.mark id, []) := by
  by_cases hm : id ∈ s.visited <;> simp [arrive, mark, hm]

end Survey

namespace Hierarchy

variable {h : Hierarchy σ α} {g : Generator σ α} {c : Config}
variable {k : GeneratorId} {id d p : ClassId} {cls : Class σ α} {v w own : Verdict}

/-! ### What a class comes to -/

/-- What a class comes to: the verdicts taken over from its parents under one heading, and the
verdict on its own laws under another. -/
def joined (generator name : String) (inherited : List Verdict) (own : Verdict) : Verdict :=
  ((Verdict.all inherited).under (prerequisitesHeading generator name)).both
    (own.under (ownHeading generator name))

/-- What a walk may take over from a class: its record, or the line for a failure that is
arrived at again. -/
def Inherits (h : Hierarchy σ α) (g : Generator σ α) (l : Ledger) (p : ClassId) (v : Verdict) :
    Prop :=
  ∃ first w, l.verdict? g.id p = some w ∧ v = recalled (h.nameOf p) g.name first w

theorem recalled_true (name generator : String) (w : Verdict) :
    recalled name generator true w = w := rfl

/-- What is recalled of a record is a success exactly if the record is: the line for a class that
failed already stands for a failure. -/
theorem recalled_eq_success_iff {name generator : String} {first : Bool} :
    recalled name generator first w = .success ↔ w = .success := by
  unfold recalled
  cases w with
  | success => simp [Verdict.isSuccess]
  | failure report =>
    cases first
    · simp only [Verdict.isSuccess, Bool.or_self, Bool.false_eq_true, if_false]
      constructor
      · intro hf
        have := Verdict.isSuccess_iff.2 hf
        simp at this
      · intro hf
        cases hf
    · simp

/-- A success is taken over exactly from a recorded success. -/
theorem Inherits.eq_success_iff {l : Ledger} (hv : h.Inherits g l p v) :
    v = .success ↔ l.verdict? g.id p = some .success := by
  obtain ⟨first, w, hw, rfl⟩ := hv
  rw [recalled_eq_success_iff, hw, Option.some_inj]

theorem Inherits.isSome {l : Ledger} (hv : h.Inherits g l p v) :
    (l.verdict? g.id p).isSome := by
  obtain ⟨_, w, hw, -⟩ := hv
  rw [hw]
  rfl

/-- Something is taken over from each parent. -/
theorem exists_of_inherits {l : Ledger} {parents : List ClassId} {inherited : List Verdict}
    (hi : List.Forall₂ (h.Inherits g l) parents inherited) (hp : p ∈ parents) :
    ∃ v ∈ inherited, h.Inherits g l p v := by
  induction hi with
  | nil => exact absurd hp List.not_mem_nil
  | cons hv _ ih =>
    rcases List.mem_cons.1 hp with rfl | hp
    · exact ⟨_, List.mem_cons_self, hv⟩
    · obtain ⟨v, hm, hv⟩ := ih hp
      exact ⟨v, List.mem_cons_of_mem _ hm, hv⟩

/-- If something is taken over from each parent, all parents are recorded. -/
theorem isSome_of_inherits {l : Ledger} {parents : List ClassId} {inherited : List Verdict}
    (hi : List.Forall₂ (h.Inherits g l) parents inherited) (hp : p ∈ parents) :
    (l.verdict? g.id p).isSome := by
  obtain ⟨v, -, hv⟩ := exists_of_inherits hi hp
  exact hv.isSome

/-- A class holds exactly if its own laws do and all its parents are recorded as holding. -/
theorem joined_eq_success_iff {l : Ledger} {parents : List ClassId} {inherited : List Verdict}
    {generator name : String} (hi : List.Forall₂ (h.Inherits g l) parents inherited) :
    joined generator name inherited own = .success ↔
      own = .success ∧ ∀ p ∈ parents, l.verdict? g.id p = some .success := by
  have hall : (∀ v ∈ inherited, v = .success) ↔
      ∀ p ∈ parents, l.verdict? g.id p = some .success := by
    induction hi with
    | nil => simp
    | cons hv _ ih => rw [List.forall_mem_cons, List.forall_mem_cons, hv.eq_success_iff, ih]
  rw [joined, Verdict.both_eq_success_iff, Verdict.under_eq_success_iff,
    Verdict.under_eq_success_iff, Verdict.all_eq_success_iff, hall, and_comm]

/-! ### Settling classes -/

variable [Inspectable α]

/-- Classes are settled one after the other: from the host and the ledger in `x`, the classes of
a plan, up to the host and the ledger in `y`, with the work reported meanwhile. -/
inductive Settles (h : Hierarchy σ α) (g : Generator σ α) (c : Config) (x : σ × Ledger) :
    List ClassId → σ × Ledger → List (Event α) → Prop
  | refl : Settles h g c x [] x []
  | snoc {plan s l es id cls inherited} :
      Settles h g c x plan (s, l) es →
      h.class? id = some cls →
      l.verdict? g.id id = none →
      List.Forall₂ (h.Inherits g l) cls.parents inherited →
      Settles h g c x (plan ++ [id])
        ((cls.checkLaws id g c).final s,
          l.record g.id id
            (joined g.name cls.name inherited ((cls.checkLaws id g c).value s)))
        (es ++ work ((cls.checkLaws id g c).events s))

/-- The laws of several classes are run in turn, from the host state `s` on.  A class is opened, its
laws are checked in the state that the classes before it leave behind, and it is closed with what
they come to.  In the end the host is in the state `t`, and the events on the way are listed. -/
inductive RunsLaws (h : Hierarchy σ α) (g : Generator σ α) (c : Config) :
    σ → List ClassId → σ → List (Event α) → Prop
  | nil {s} : RunsLaws h g c s [] s []
  | cons {s d cls ds t es} :
      h.class? d = some cls →
      RunsLaws h g c ((cls.laws.check g c).final s) ds t es →
      RunsLaws h g c s (d :: ds) t
        (opened d g.id c.skip :: ((cls.laws.check g c).events s ++
          closed d g.id ((cls.laws.check g c).value s) :: es))

variable {x y z : σ × Ledger} {plan plan' ds : List ClassId} {es es' : List (Event α)} {s t : σ}

/-- One class more is checked where the others leave off. -/
theorem RunsLaws.snoc (hr : h.RunsLaws g c s ds t es) (hc : h.class? id = some cls) :
    h.RunsLaws g c s (ds ++ [id]) ((cls.checkLaws id g c).final t)
      (es ++ (cls.checkLaws id g c).events t) := by
  induction hr with
  | nil =>
    rw [Class.events_checkLaws]
    exact .cons hc .nil
  | cons hd _ ih =>
    rw [List.cons_append, List.cons_append, List.append_assoc, List.cons_append]
    exact .cons hd ih

/-- Steps can be put one after the other. -/
theorem Settles.trans (hs : Settles h g c x plan y es) (hs' : Settles h g c y plan' z es') :
    Settles h g c x (plan ++ plan') z (es ++ es') := by
  induction hs' with
  | refl => simpa using hs
  | snoc _ hc hv hi ih =>
    rw [← List.append_assoc, ← List.append_assoc]
    exact ih.snoc hc hv hi

/-- No record changes. -/
theorem Settles.keeps (hs : Settles h g c x plan y es) (hv : x.2.verdict? k d = some v) :
    y.2.verdict? k d = some v := by
  induction hs with
  | refl => exact hv
  | snoc _ _ _ _ ih => exact Ledger.verdict?_record_of_some ih ..

/-- The pages of other generators stay as they are. -/
theorem Settles.pageOf_eq (hs : Settles h g c x plan y es) (hk : k ≠ g.id) :
    y.2.pageOf k = x.2.pageOf k := by
  induction hs with
  | refl => rfl
  | snoc _ _ _ _ ih => rw [Ledger.pageOf_record, if_neg hk.symm, ih]

/-- What is recorded afterwards was recorded before or is in the plan. -/
theorem Settles.isSome_iff (hs : Settles h g c x plan y es) :
    (y.2.verdict? g.id d).isSome ↔ (x.2.verdict? g.id d).isSome ∨ d ∈ plan := by
  induction hs with
  | refl => simp
  | @snoc plan s l es id cls inherited _ _ _ _ ih =>
    rw [Ledger.verdict?_record, Option.isSome_or, Bool.or_eq_true, ih, List.mem_append,
      List.mem_singleton, or_assoc]
    by_cases hd : id = d
    · simp [hd]
    · simp [hd, Ne.symm hd]

/-- The classes of a plan were not recorded before. -/
theorem Settles.fresh (hs : Settles h g c x plan y es) (hd : d ∈ plan) :
    x.2.verdict? g.id d = none := by
  induction hs with
  | refl => exact absurd hd List.not_mem_nil
  | snoc hs _ hv _ ih =>
    rcases List.mem_append.1 hd with hd | hd
    · exact ih hd
    · obtain rfl := List.mem_singleton.1 hd
      refine Option.eq_none_iff_forall_not_mem.2 fun w hw => ?_
      rw [hs.keeps hw] at hv
      cases hv

/-- No class is settled twice: it has a record after the first time. -/
theorem Settles.nodup (hs : Settles h g c x plan y es) : plan.Nodup := by
  induction hs with
  | refl => exact List.nodup_nil
  | @snoc plan s l es id cls inherited hs _ hv _ ih =>
    refine List.nodup_append.2 ⟨ih, List.nodup_singleton id, ?_⟩
    rintro d hd _ hm rfl
    obtain rfl := List.mem_singleton.1 hm
    have hr := hs.isSome_iff.2 (.inr hd)
    rw [hv] at hr
    cases hr

/-- The parents of what is settled are recorded. -/
theorem Settles.parents_isSome (hs : Settles h g c x plan y es) (hd : d ∈ plan)
    (hp : p ∈ h.parentsOf d) : (y.2.verdict? g.id p).isSome := by
  induction hs with
  | refl => exact absurd hd List.not_mem_nil
  | @snoc plan s l es id cls inherited hs hc _ hi ih =>
    have hl : (l.verdict? g.id p).isSome := by
      rcases List.mem_append.1 hd with hd | hd
      · exact ih hd
      · obtain rfl := List.mem_singleton.1 hd
        exact isSome_of_inherits hi (parentsOf_eq hc ▸ hp)
    rw [Ledger.verdict?_record, Option.isSome_or, hl, Bool.true_or]

/-- No class stands before one of its parents in a plan. -/
theorem Settles.ordered (hs : Settles h g c x plan y es) :
    plan.Pairwise fun d p => p ∉ h.parentsOf d := by
  induction hs with
  | refl => exact List.Pairwise.nil
  | snoc hs _ hv _ ih =>
    refine List.pairwise_append.2 ⟨ih, List.pairwise_singleton _ _, fun d hd p hm hp => ?_⟩
    obtain rfl := List.mem_singleton.1 hm
    have hr := hs.parents_isSome hd hp
    rw [hv] at hr
    cases hr

/-- The host goes through the laws of the plan, class after class, and through nothing else. -/
theorem Settles.runsLaws (hs : Settles h g c x plan y es) :
    ∃ es', h.RunsLaws g c x.1 plan y.1 es' ∧ es = work es' := by
  induction hs with
  | refl => exact ⟨[], .nil, rfl⟩
  | snoc _ hc _ _ ih =>
    obtain ⟨es', hr, rfl⟩ := ih
    exact ⟨_, hr.snoc hc, (work_append ..).symm⟩

/-- Each class of the plan is opened once, and no other class. -/
theorem Settles.openings_eq (hs : Settles h g c x plan y es) (k : GeneratorId) (d : ClassId) :
    openings k d es = if d ∈ plan ∧ g.id = k then [c.skip] else [] := by
  induction hs with
  | refl => simp [openings]
  | @snoc plan s l es id cls inherited hs _ hv _ ih =>
    rw [openings_append, openings_work, ih, Class.openings_checkLaws]
    by_cases hk : g.id = k
    · by_cases hd : id = d
      · have hn : d ∉ plan := fun hm => by
          have hr := hs.isSome_iff.2 (.inr hm)
          rw [← hd, hv] at hr
          cases hr
        simp [hk, hd, hn]
      · simp [hk, hd, Ne.symm hd]
    · simp [hk]

/-- Each check that is opened is closed. -/
theorem Settles.closings_length_eq (hs : Settles h g c x plan y es) (k : GeneratorId)
    (d : ClassId) : (closings k d es).length = (openings k d es).length := by
  induction hs with
  | refl => rfl
  | @snoc plan s l es id cls inherited _ _ _ _ ih =>
    rw [closings_append, openings_append, closings_work, openings_work, List.length_append,
      List.length_append, ih, Class.closings_checkLaws, Class.openings_checkLaws]
    split <;> rfl

end Hierarchy

end Lawbook
