/-
Lawbook/Proofs/Once.lean

Once only: the laws of a class are checked at most once for a generator.

A request has a plan, the classes whose laws it checks, in order.  `Plan` says which classes these
are and that nothing else is asked of the host: the request runs the laws of the plan in turn.  How
often it arrives at a class is bounded by the parents of the requested class and of its ancestors,
however many ways lead up through the hierarchy.

`Desk.laws_checked_once` puts it together: over a run of operations no class is checked twice for a
generator, and every request on a registered class that follows has a plan.
-/
import Lawbook.Proofs.Account

namespace Lawbook

open Event

variable {κ σ α : Type} [Inspectable α]

namespace Registry

/-- The classes whose laws a request on the class `id` checks, and what this does to the host. -/
structure Plan (r : Registry σ α) (id : ClassId) (g : Generator σ α) (c : Config) (s : σ)
    (plan : List ClassId) : Prop where
  /-- Each class is checked once. -/
  nodup : plan.Nodup
  /-- The requested class and its ancestors are checked, unless they are recorded. -/
  mem_iff : ∀ d, d ∈ plan ↔
    r.hierarchy.Descends id d ∧ r.ledger.verdict? g.id d = none
  /-- No class is checked before one of its parents. -/
  ordered : plan.Pairwise fun d p => p ∉ r.hierarchy.parentsOf d
  /-- The laws of the plan are run in turn: these are the values asked for and the predicates
  called, and they leave the host as the request does. -/
  runs_laws : ∃ es, r.hierarchy.RunsLaws g c s plan ((r.validate id g c).final s) es ∧
    work ((r.validate id g c).events s) = work es
  /-- The classes of the plan are opened once, and no others. -/
  openings_eq : ∀ k d, openings k d ((r.validate id g c).events s) =
    if d ∈ plan ∧ g.id = k then [c.skip] else []
  /-- The request arrives at the class, and at most once over each parent edge above it. -/
  arrivals_le : arrivals ((r.validate id g c).events s) ≤
    1 + r.hierarchy.edgeCount (r.hierarchy.lineage id)

/-- A request on a registered class has a plan, if the accounts are in order. -/
theorem exists_plan {Asks : Generator σ α → Config → Prop} {r : Registry σ α}
    {es : List (Event α)} (ha : Audited Asks r es) {id : ClassId}
    (hid : id.index < r.hierarchy.size) (g : Generator σ α) (c : Config) (s : σ) :
    ∃ plan, r.Plan id g c s plan := by
  obtain ⟨plan, hp⟩ := validate_settles r id g c s hid
  refine ⟨plan, hp.settles.nodup, fun d => hp.mem_plan_iff (ha.validate id g c s),
    hp.settles.ordered, hp.settles.runsLaws, ?_, ?_⟩
  · intro k d
    rw [← openings_work]
    exact hp.settles.openings_eq k d
  · rw [hp.arrivals_eq]
    have hsub : plan ⊆ r.hierarchy.lineage id :=
      fun d hd => Hierarchy.mem_lineage_iff.2 (hp.descends d hd)
    have hle := r.hierarchy.edgeCount_le hp.settles.nodup hsub
    omega

end Registry

/-- Over a run, the laws of a class are checked at most once for a generator. -/
theorem Audited.openings_length_le {Asks : Generator σ α → Config → Prop} {r : Registry σ α}
    {es : List (Event α)} (ha : Audited Asks r es) (k : GeneratorId) (d : ClassId) :
    (openings k d es).length ≤ 1 := by
  cases hv : r.ledger.verdict? k d with
  | none =>
    rw [ha.openings_nil k d hv]
    exact Nat.zero_le _
  | some v =>
    obtain ⟨g, c, s, cls, rfl, -, hacc⟩ := ha.accounted k d v hv
    rw [hacc.openings_eq]
    exact Nat.le_refl _

/-- **No class is checked twice for a generator** in a run of operations, and **every request that
follows checks exactly the classes that it has to**, parents first. -/
theorem Desk.laws_checked_once [DecidableEq κ] (qs : List (Request κ σ α)) (s₀ : σ) :
    (∀ (k : GeneratorId) (d : ClassId), (openings k d (Desk.history qs s₀)).length ≤ 1) ∧
      ∀ (id : ClassId) (g : Generator σ α) (c : Config) (s : σ),
        id.index < (Desk.after qs s₀).registry.hierarchy.size →
          ∃ plan, (Desk.after qs s₀).registry.Plan id g c s plan := by
  have ha := Desk.after_audited qs s₀
  refine ⟨fun k d => ?_, fun id g c s hid => Registry.exists_plan ha hid g c s⟩
  rw [← openings_work]
  exact ha.openings_length_le k d

/-- The first class was checked for the second one before, so a request on the fourth one only
looks its record up, and arrives at each of the four classes once. -/
example :
    let later := ((Desk.after Diamond.requests ()).registry.validate ⟨3⟩ Diamond.doubles
      Diamond.config).events ()
    openings Diamond.doubles.id ⟨0⟩ (Desk.history Diamond.requests ()) = [false] ∧
      openings Diamond.doubles.id ⟨0⟩ later = [] ∧
      openings Diamond.doubles.id ⟨2⟩ later = [false] ∧ arrivals later = 4 := by
  decide +kernel

end Lawbook
