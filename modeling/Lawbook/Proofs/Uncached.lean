/-
Lawbook/Proofs/Uncached.lean

Without records: what a request comes to, said without the ledger.

Where generators and predicates do not depend on the host, a class holds if the laws of the class
and of all its ancestors do, and `Holds` says so without records, marks and shortcuts.  The records
of a run, whoever asked for what before, agree with it: this is an induction over the ancestry of a
class, since its account relates the record to one check of its own laws and to the records of its
parents (`Audited.eq_success_iff_holds`).

`Desk.validate_eq_success_iff` is the result for requests: the walk with its ledger refines the
check of all laws.
-/
import Lawbook.Proofs.Account

namespace Lawbook

open Event

variable {κ σ α : Type} [Inspectable α]

namespace Hierarchy

/-- The laws of a class itself and of all its ancestors hold, checked in the host state `t`. -/
def Holds (h : Hierarchy σ α) (g : Generator σ α) (c : Config) (t : σ) (id : ClassId) : Prop :=
  ∀ d cls, h.Descends id d → h.class? d = some cls → (cls.laws.check g c).value t = .success

omit [Inspectable α] in
/-- The predicates of a class and of all its ancestors say the same in all host states. -/
def Steady (h : Hierarchy σ α) (id : ClassId) : Prop :=
  ∀ d cls, h.Descends id d → h.class? d = some cls → cls.laws.Steady

variable {h : Hierarchy σ α} {g : Generator σ α} {c : Config} {t : σ} {id p : ClassId}
variable {cls : Class σ α}

/-- A class holds exactly if its own laws and all its parents do. -/
theorem holds_iff (hc : h.class? id = some cls) : h.Holds g c t id ↔
    (cls.laws.check g c).value t = .success ∧ ∀ p ∈ h.parentsOf id, h.Holds g c t p := by
  constructor
  · intro hh
    exact ⟨hh id cls .refl hc, fun p hp d cls' hd => hh d cls' (.of_parent hp hd)⟩
  · rintro ⟨hown, hparents⟩ d cls' hd hc'
    rcases descends_iff.1 hd with rfl | ⟨p, hp, hpd⟩
    · rw [hc] at hc'
      cases hc'
      exact hown
    · exact hparents p hp d cls' hpd hc'

omit [Inspectable α] in
/-- In a hierarchy of steady classes, every ancestry is steady. -/
theorem steady_of_forall_mem (hs : ∀ cls ∈ h.classes, cls.laws.Steady) (id : ClassId) :
    h.Steady id :=
  fun _ cls _ hc => hs cls (Array.mem_of_getElem? hc)

omit [Inspectable α] in
/-- What is steady up to the last ancestor is so from each parent on. -/
theorem Steady.parent (hs : h.Steady id) (hp : p ∈ h.parentsOf id) : h.Steady p :=
  fun d cls' hd => hs d cls' (.of_parent hp hd)

end Hierarchy

/-- **The records of a class and of its ancestors agree with the laws**, if all handles of a
generator yield the same values and came with one configuration. -/
theorem Audited.eq_success_iff_holds {Asks : Generator σ α → Config → Prop} {r : Registry σ α}
    {es : List (Event α)} (ha : Audited Asks r es) {g : Generator σ α} {c : Config}
    {value : Nat → Except GeneratorError α} (hg : g.Yields value)
    (hasks : ∀ g' c', Asks g' c' → g'.id = g.id → g'.Yields value ∧ c' = c) (t : σ) :
    ∀ (n : Nat) (d : ClassId) (v : Verdict), d.index < n → r.hierarchy.Steady d →
      r.ledger.verdict? g.id d = some v → (v = .success ↔ r.hierarchy.Holds g c t d) := by
  intro n
  induction n with
  | zero => exact fun d v hn => absurd hn (Nat.not_lt_zero _)
  | succ n ih =>
    intro d v hn hs hv
    obtain ⟨g₁, c₁, s₁, cls, hk, hasked, hacc⟩ := ha.accounted g.id d v hv
    obtain ⟨hg₁, rfl⟩ := hasks g₁ c₁ hasked hk
    -- the check that was recorded is as good as one by `g` in the state `t`
    have hown : (cls.laws.check g₁ c₁).value s₁ = (cls.laws.check g c₁).value t :=
      Constraint.value_check_eq (hs d cls .refl hacc.class?_eq) hg₁ hg c₁ s₁ t
    have hparents : ∀ p ∈ r.hierarchy.parentsOf d,
        (r.ledger.verdict? g.id p = some .success ↔ r.hierarchy.Holds g c₁ t p) := by
      intro p hp
      have hlt := Hierarchy.lt_of_mem_parentsOf hp
      obtain ⟨w, hw⟩ := Option.isSome_iff_exists.1 (hk ▸ hacc.parents_isSome hp)
      rw [hw, Option.some_inj]
      exact ih p w (by omega) (hs.parent hp) hw
    rw [hacc.eq_success_iff, hown, hk, Hierarchy.holds_iff hacc.class?_eq]
    exact and_congr_right fun _ => forall₂_congr hparents

/-- **Validation with records refines validation without them.**  After any run of operations, a
request on a registered class succeeds exactly if the laws of the class and of all its ancestors
hold, each checked by itself.  The generator yields values that depend on the round only, whichever
handle of it is asked, all requests for it come with one configuration, and the predicates of the
class and of its ancestors say the same in all states of the host. -/
theorem Desk.validate_eq_success_iff [DecidableEq κ] (qs : List (Request κ σ α)) (s₀ s t : σ)
    (id : ClassId) (g : Generator σ α) (c : Config) (value : Nat → Except GeneratorError α)
    (hid : id.index < (Desk.after qs s₀).registry.hierarchy.size) (hg : g.Yields value)
    (hqs : ∀ g' c', Asked qs g' c' → g'.id = g.id → g'.Yields value ∧ c' = c)
    (hs : (Desk.after qs s₀).registry.hierarchy.Steady id) :
    (((Desk.after qs s₀).registry.validate id g c).value s).1 = .success ↔
      (Desk.after qs s₀).registry.hierarchy.Holds g c t id := by
  obtain ⟨plan, hp⟩ := Registry.validate_settles (Desk.after qs s₀).registry id g c s hid
  have ha := (Desk.after_audited qs s₀).validate id g c s
  have hasks : ∀ g' c', (Asked qs g' c' ∨ (g' = g ∧ c' = c)) → g'.id = g.id →
      g'.Yields value ∧ c' = c := by
    rintro g' c' (hasked | ⟨rfl, rfl⟩) hk
    · exact hqs g' c' hasked hk
    · exact ⟨hg, rfl⟩
  have hiff := ha.eq_success_iff_holds hg hasks t (id.index + 1) id _ (Nat.lt_succ_self _)
    (hp.hierarchy_eq ▸ hs) hp.recorded
  rwa [hp.hierarchy_eq] at hiff

namespace Diamond

theorem even_steady : even.Steady :=
  fun _ _ _ => rfl

theorem doubles_yields : doubles.Yields fun i => .ok (2 * i) :=
  fun _ _ => rfl

theorem classes_after : (Desk.after requests ()).registry.hierarchy.classes =
    #[⟨"Even", [], .obeys even⟩, ⟨"Left", [⟨0⟩], .trivial⟩, ⟨"Right", [⟨0⟩], .trivial⟩,
      ⟨"Both", [⟨1⟩, ⟨2⟩], .obeys even⟩] := by
  rfl

/-- All laws of the example are steady, in every class. -/
theorem after_steady (id : ClassId) : (Desk.after requests ()).registry.hierarchy.Steady id := by
  refine Hierarchy.steady_of_forall_mem ?_ id
  rw [classes_after]
  simp [even_steady]

theorem asked_iff {g : Generator Unit Nat} {c : Config} :
    Asked requests g c ↔ g = doubles ∧ c = config := by
  simp [Asked, requests, Request.asks?, eq_comm]

/-- After the second of four classes was validated, the fourth one holds if all four do. -/
theorem both_refines :
    (((Desk.after requests ()).registry.validate ⟨3⟩ doubles config).value ()).1 = .success ↔
      (Desk.after requests ()).registry.hierarchy.Holds doubles config () ⟨3⟩ := by
  refine Desk.validate_eq_success_iff requests () () () ⟨3⟩ doubles config
    (fun i => .ok (2 * i)) (by decide +kernel) doubles_yields ?_ (after_steady ⟨3⟩)
  intro g c hasked _
  obtain ⟨rfl, rfl⟩ := asked_iff.1 hasked
  exact ⟨doubles_yields, rfl⟩

end Diamond

end Lawbook
