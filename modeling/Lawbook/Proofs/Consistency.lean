/-
Lawbook/Proofs/Consistency.lean

Consistency: the records of a registry fit the hierarchy, each other, and the checks that were
made.

`Consistent` says so of one state of a registry and of the events up to it, and `Extends` says what
one request may change about the records.  `Desk.records_consistent` puts them together: every run
of operations ends in a consistent registry, and every request there adds the records of the
requested class and of its ancestors for one generator, and changes nothing else.
-/
import Lawbook.Proofs.Account

namespace Lawbook

open Event

variable {κ σ α : Type} [Inspectable α]

namespace Registry

/-- The records of a registry fit the hierarchy, each other, and the events `es` of the run that
made them. -/
structure Consistent (Asks : Generator σ α → Config → Prop) (r : Registry σ α)
    (es : List (Event α)) : Prop where
  /-- Only registered classes have records. -/
  registered : ∀ k d, (r.ledger.verdict? k d).isSome → d.index < r.hierarchy.size
  /-- The parents of a recorded class are recorded for the same generator. -/
  closed : ∀ k d, (r.ledger.verdict? k d).isSome →
    ∀ p ∈ r.hierarchy.parentsOf d, (r.ledger.verdict? k p).isSome
  /-- The laws of a recorded class were checked exactly once, for a handle of the generator that
  was asked; the record is a success exactly if that check was one and all parents have one. -/
  checked : ∀ k d v, r.ledger.verdict? k d = some v → ∃ g c s cls, g.id = k ∧ Asks g c ∧
    r.hierarchy.class? d = some cls ∧ openings k d es = [c.skip] ∧
    closings k d es = [(cls.laws.check g c).value s] ∧
    (v = .success ↔ (cls.laws.check g c).value s = .success ∧
      ∀ p ∈ r.hierarchy.parentsOf d, r.ledger.verdict? k p = some .success)
  /-- The laws of a class without a record were never checked. -/
  unchecked : ∀ k d, r.ledger.verdict? k d = none → openings k d es = [] ∧ closings k d es = []
  /-- A recorded success comes with one for every ancestor. -/
  hereditary : ∀ k d a, r.ledger.verdict? k d = some .success → r.hierarchy.Descends d a →
    r.ledger.verdict? k a = some .success

/-- What a request on the class `id` for the generator `k` changes about a registry. -/
structure Extends (r r' : Registry σ α) (id : ClassId) (k : GeneratorId) : Prop where
  /-- No class changes. -/
  hierarchy_eq : r'.hierarchy = r.hierarchy
  /-- No record changes. -/
  keeps : ∀ k' d v, r.ledger.verdict? k' d = some v → r'.ledger.verdict? k' d = some v
  /-- The pages of other generators do not change. -/
  pageOf_eq : ∀ k', k' ≠ k → r'.ledger.pageOf k' = r.ledger.pageOf k'
  /-- A registered class is recorded together with its ancestors. -/
  isSome_iff : id.index < r.hierarchy.size → ∀ d, (r'.ledger.verdict? k d).isSome ↔
    (r.ledger.verdict? k d).isSome ∨ r.hierarchy.Descends id d
  /-- For a class that is not there, nothing is recorded. -/
  ledger_eq : ¬ id.index < r.hierarchy.size → r'.ledger = r.ledger

variable {Asks : Generator σ α → Config → Prop} {r : Registry σ α} {es : List (Event α)}

/-- A registry whose accounts are in order is consistent. -/
theorem consistent_of_audited (ha : Audited Asks r (work es)) : Consistent Asks r es where
  registered := fun _ _ hd => ha.lt_size hd
  closed := fun _ _ hd _ hp => ha.parents_isSome hd hp
  checked := by
    intro k d v hv
    obtain ⟨g, c, s, cls, rfl, hasks, hacc⟩ := ha.accounted k d v hv
    refine ⟨g, c, s, cls, rfl, hasks, hacc.class?_eq, ?_, ?_, hacc.eq_success_iff⟩
    · rw [← openings_work]
      exact hacc.openings_eq
    · rw [← closings_work]
      exact hacc.closings_eq
  unchecked := by
    intro k d hn
    rw [← openings_work, ← closings_work]
    exact ⟨ha.openings_nil k d hn, ha.closings_nil k d hn⟩
  hereditary := fun _ _ _ hd hda => ha.success_of_descends hd hda

/-- A request on a registry whose accounts are in order adds the records that are missing. -/
theorem validate_extends (ha : Audited Asks r es) (id : ClassId) (g : Generator σ α) (c : Config)
    (s : σ) : r.Extends ((r.validate id g c).value s).2 id g.id := by
  by_cases hid : id.index < r.hierarchy.size
  · obtain ⟨plan, hp⟩ := validate_settles r id g c s hid
    have ha' := ha.validate id g c s
    exact ⟨hp.hierarchy_eq, fun _ _ _ hv => hp.settles.keeps hv,
      fun _ hk => hp.settles.pageOf_eq hk, fun _ _ => hp.isSome_iff ha', fun hn => absurd hid hn⟩
  · have heq : ((r.validate id g c).value s).2 = r := by
      rw [Run.value, validate_unknown r id g c s hid]
    rw [heq]
    exact ⟨rfl, fun _ _ _ hv => hv, fun _ _ => rfl, fun hr => absurd hr hid, fun _ => rfl⟩

end Registry

/-- **Every run of operations leaves consistent records**, and every request that follows adds the
records of the requested class and its ancestors and changes nothing else. -/
theorem Desk.records_consistent [DecidableEq κ] (qs : List (Request κ σ α)) (s₀ : σ) :
    (Desk.after qs s₀).registry.Consistent (Asked qs) (Desk.history qs s₀) ∧
      ∀ (id : ClassId) (g : Generator σ α) (c : Config) (s : σ),
        (Desk.after qs s₀).registry.Extends
          (((Desk.after qs s₀).registry.validate id g c).value s).2 id g.id := by
  have ha := Desk.after_audited qs s₀
  exact ⟨Registry.consistent_of_audited ha,
    fun id g c s => Registry.validate_extends ha id g c s⟩

end Lawbook
