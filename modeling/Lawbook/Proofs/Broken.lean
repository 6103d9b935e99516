/-
Lawbook/Proofs/Broken.lean

Broken laws: where to read about them after a failure.

A failure goes back to a class whose own laws are broken, the requested one or an ancestor.  The
request that checked these laws shows the block of that class.  A record keeps what the walk had to
say that made it, and where the walk arrived at a failed ancestor again, that is one line.  So a
request that is answered from such a record names the ancestor, and shows no block
(`Diamond.no_block_shown`).

`Desk.failure_shows_broken` says that this is all that can happen: a failure shows the block of a
class whose laws are broken, or it shows the line for an ancestor, and then an earlier request on
the same generator showed such a block for that ancestor.  The account of a record says why the
record is a failure, and by induction over the ancestry each failing record shows a block or a line
(`Audited.shows_broken_or_again`), and goes back to broken laws (`Audited.exists_broken`).
-/
import Lawbook.Proofs.Account
import Lawbook.Proofs.Shown

namespace Lawbook

open Event

variable {κ σ α : Type} [Inspectable α]

/-! ### Failing records -/

namespace Hierarchy

/-- The class `id` or an ancestor had broken laws among the events `es`, and a verdict shows the
block of that class, for a handle with a name among `Named`. -/
def ShowsBroken (h : Hierarchy σ α) (k : GeneratorId) (Named : String → Prop)
    (es : List (Event α)) (id : ClassId) (v : Verdict) : Prop :=
  ∃ d name report, h.Descends id d ∧ closings k d es = [.failure report] ∧ Named name ∧
    v.Shows (ownBlock name (h.nameOf d) report)

/-- The line for a class that is arrived at again, as it stands in a report. -/
def againText (name generator : String) : String :=
  Text.trimEnd (againLine name generator)

end Hierarchy

/-- The names of the handles of a generator that were asked. -/
def Called (Asks : Generator σ α → Config → Prop) (k : GeneratorId) (name : String) : Prop :=
  ∃ g c, Asks g c ∧ g.id = k ∧ g.name = name

/-- A failing account has broken laws, or takes over from a parent whose record fails. -/
theorem Account.broken_or_inherited {h : Hierarchy σ α} {l : Ledger} {es : List (Event α)}
    {g : Generator σ α} {c : Config} {s : σ} {cls : Class σ α} {d : ClassId} {v : Verdict}
    (ha : Account h l es g c s cls d v) (hv : v ≠ .success) :
    (∃ report, closings g.id d es = [.failure report] ∧
        v.Shows (Hierarchy.ownBlock g.name (h.nameOf d) report)) ∨
      ∃ p ∈ h.parentsOf d, ∃ w, l.verdict? g.id p = some w ∧ w ≠ .success ∧
        ∃ first, ∀ part, Text.trimEnd part = part →
          (Hierarchy.recalled (h.nameOf p) g.name first w).Shows part → v.Shows part := by
  obtain ⟨inherited, hi, hjoined⟩ := ha.verdict_eq
  cases hown : (cls.laws.check g c).value s with
  | failure report =>
    refine .inl ⟨report, ?_, ?_⟩
    · rw [ha.closings_eq, hown]
    · rw [hjoined, hown, Hierarchy.nameOf_eq ha.class?_eq]
      exact Hierarchy.joined_shows_own inherited report
  | success =>
    -- its laws hold, so that not all records of its parents can be successes
    right
    have hfails : ¬ ∀ p ∈ h.parentsOf d, l.verdict? g.id p = some .success :=
      fun hall => hv (ha.eq_success_iff.2 ⟨hown, hall⟩)
    simp only [not_forall] at hfails
    obtain ⟨p, hp, hne⟩ := hfails
    obtain ⟨u, hu, first, w, hw, rfl⟩ :=
      Hierarchy.exists_of_inherits hi (Hierarchy.parentsOf_eq ha.class?_eq ▸ hp)
    refine ⟨p, hp, w, hw, ?_, first, ?_⟩
    · rintro rfl
      exact hne hw
    · intro part hpart hs
      rw [hjoined]
      exact Hierarchy.joined_shows_inherited hpart hu hs _

namespace Audited

variable {Asks : Generator σ α → Config → Prop} {r : Registry σ α} {es : List (Event α)}
variable {k : GeneratorId}

/-- **A failing record goes back to broken laws** of the class or of an ancestor. -/
theorem exists_broken (ha : Audited Asks r (work es)) (d : ClassId) (v : Verdict)
    (hv : r.ledger.verdict? k d = some v) (hne : v ≠ .success) :
    ∃ e report, r.hierarchy.Descends d e ∧ closings k e es = [.failure report] := by
  induction d using Hierarchy.parents_induction (h := r.hierarchy) generalizing v with
  | step d ih =>
    obtain ⟨g, c, s, cls, rfl, -, hacc⟩ := ha.accounted k d v hv
    rcases hacc.broken_or_inherited hne with ⟨report, hclose, -⟩ | ⟨p, hp, w, hw, hwne, -⟩
    · rw [closings_work] at hclose
      exact ⟨d, report, .refl, hclose⟩
    · obtain ⟨e, report, he, hclose⟩ := ih p hp w hw hwne
      exact ⟨e, report, .of_parent hp he, hclose⟩

/-- **A failing record shows the block of a class with broken laws, or the line for an ancestor**
whose record fails. -/
theorem shows_broken_or_again (ha : Audited Asks r (work es)) (d : ClassId) (v : Verdict)
    (hv : r.ledger.verdict? k d = some v) (hne : v ≠ .success) :
    r.hierarchy.ShowsBroken k (Called Asks k) es d v ∨
      ∃ p name w, p ∈ r.hierarchy.ancestors d ∧ Called Asks k name ∧
        v.Shows (Hierarchy.againText (r.hierarchy.nameOf p) name) ∧
        r.ledger.verdict? k p = some w ∧ w ≠ .success := by
  induction d using Hierarchy.parents_induction (h := r.hierarchy) generalizing v with
  | step d ih =>
    obtain ⟨g, c, s, cls, rfl, hasks, hacc⟩ := ha.accounted k d v hv
    have hcalled : Called Asks g.id g.name := ⟨g, c, hasks, rfl, rfl⟩
    rcases hacc.broken_or_inherited hne with
      ⟨report, hclose, hs⟩ | ⟨p, hp, w, hw, hwne, first, hshows⟩
    · rw [closings_work] at hclose
      exact .inl ⟨d, g.name, report, .refl, hclose, hcalled, hs⟩
    · have hstep : r.hierarchy.Extends d p := hp
      cases first with
      | true =>
        -- the parent's record was taken over as it is
        rcases ih p hp w hw hwne with
          ⟨e, name, report, he, hclose, hname, hs⟩ | ⟨q, name, u, hq, hname, hs, hu⟩
        · exact .inl ⟨e, name, report, .of_parent hp he, hclose, hname,
            hshows _ (Hierarchy.trimEnd_ownBlock ..) hs⟩
        · refine .inr ⟨q, name, u, ?_, hname, hshows _ (Text.trimEnd_trimEnd _) hs, hu⟩
          rw [Hierarchy.mem_ancestors_iff] at hq ⊢
          exact .head hstep hq
      | false =>
        refine .inr ⟨p, g.name, w, Hierarchy.mem_ancestors_iff.2 (.single hstep), hcalled, ?_, hw,
          hwne⟩
        refine hshows _ (Text.trimEnd_trimEnd _) ?_
        have hfails : w.isSuccess = false := by
          rw [Bool.eq_false_iff]
          exact fun hs => hwne (Verdict.isSuccess_iff.1 hs)
        rw [Hierarchy.recalled, hfails]
        exact Verdict.shows_fail _

end Audited

/-! ### Failing requests -/

/-- All broken laws that a run finds are shown by one of its validations. -/
theorem Desk.exists_shown_of_mem_history [DecidableEq κ] {qs : List (Request κ σ α)} {s : σ}
    {d : ClassId} {k : GeneratorId} {report : String}
    (he : closed d k (.failure report) ∈ Desk.history qs s) :
    ∃ x ∈ Desk.validations qs s, x.generator.id = k ∧ x.verdict.Shows
      (Hierarchy.ownBlock x.generator.name ((Desk.after qs s).registry.hierarchy.nameOf d)
        report) := by
  obtain ⟨x, hx, hxe⟩ := Desk.exists_validation_of_mem_history he rfl
  obtain ⟨hk, cls, hc, hs⟩ := x.shows hxe
  have hc' := Desk.grows_of_mem_validations hx d cls hc
  refine ⟨x, hx, hk, ?_⟩
  rwa [Hierarchy.nameOf_eq hc']

/-- **A failure shows broken laws, or names an ancestor for which an earlier request did.**  After
any run of operations, let a request on a registered class fail.  Then the verdict shows the block
of the class or of an ancestor: the heading of its laws for a handle of the generator, and what the
laws had to say in their one check.  Or else it shows the line for an ancestor that is arrived at
again, and an earlier validation on the same generator shows the block of that ancestor or of one
above it. -/
theorem Desk.failure_shows_broken [DecidableEq κ] (qs : List (Request κ σ α)) (s₀ s : σ)
    (id : ClassId) (g : Generator σ α) (c : Config)
    (hid : id.index < (Desk.after qs s₀).registry.hierarchy.size)
    (hv : (((Desk.after qs s₀).registry.validate id g c).value s).1 ≠ .success) :
    let h := (Desk.after qs s₀).registry.hierarchy
    let verdict := (((Desk.after qs s₀).registry.validate id g c).value s).1
    let made := Desk.history qs s₀ ++ ((Desk.after qs s₀).registry.validate id g c).events s
    let Named := Called (Asked (qs ++ [.validate id g c])) g.id
    h.ShowsBroken g.id Named made id verdict ∨
      ∃ p name, p ∈ h.ancestors id ∧ Named name ∧
        verdict.Shows (Hierarchy.againText (h.nameOf p) name) ∧
        ∃ x ∈ Desk.validations qs s₀, x.generator.id = g.id ∧
          h.ShowsBroken g.id (· = x.generator.name) made p x.verdict := by
  intro h verdict made Named
  obtain ⟨plan, hp⟩ := Registry.validate_settles (Desk.after qs s₀).registry id g c s hid
  have ha := Desk.after_validate_audited qs s₀ s id g c
  have hh := hp.hierarchy_eq
  rcases ha.shows_broken_or_again id verdict hp.recorded hv with
    hshown | ⟨p, name, w, hpa, hname, hline, hw, hwne⟩
  · rw [hh] at hshown
    exact .inl hshown
  · obtain ⟨e, report, he, hclose⟩ := ha.exists_broken p w hw hwne
    rw [hh] at hpa hline he
    have hide : h.Descends id e := (Hierarchy.mem_ancestors_iff.1 hpa).to_reflTransGen.trans he
    have hm : closed e g.id (.failure report) ∈ made := by
      rw [← mem_closings_iff, hclose]
      exact List.mem_singleton.2 rfl
    rcases List.mem_append.1 hm with hm | hm
    · -- an earlier request checked the laws, and showed the block
      obtain ⟨x, hx, hk, hs⟩ := Desk.exists_shown_of_mem_history hm
      exact .inr ⟨p, name, hpa, hname, hline, x, hx, hk, e, x.generator.name, report, he, hclose,
        rfl, hs⟩
    · -- this request did
      obtain ⟨-, cls, hc, hs⟩ :=
        Validation.shows (x := ⟨(Desk.after qs s₀).registry, s, id, g, c⟩) hm
      refine .inl ⟨e, g.name, report, hide, hclose, ?_, ?_⟩
      · exact ⟨g, c, ⟨_, List.mem_append_right _ List.mem_cons_self, rfl⟩, rfl, rfl⟩
      · rw [Hierarchy.nameOf_eq hc]
        exact hs

/-! ### A failure that shows no block -/

/-- A block has the fixed part of its heading. -/
theorem Hierarchy.heading_infix_ownBlock (generator name report : String) :
    " does not obey the laws of".toList <:+: (ownBlock generator name report).toList := by
  refine Verdict.infix_joinReports_right (by decide) _ (Text.infix_trimEnd (by decide) ?_)
  show _ <:+: (generator ++ " does not obey the laws of " ++ name).toList
  rw [String.toList_append, String.toList_append]
  exact ⟨generator.toList, ' ' :: name.toList, by simp⟩

namespace Diamond

/-- The classes join a registry, with a law on the first one that all values of `doubles` break,
and the fourth one is validated. -/
def failing : List (Request Unit Unit Nat) :=
  [.register ⟨some "Odd", [], [.obeys odd]⟩,
   .register ⟨some "Left", [⟨0⟩], []⟩,
   .register ⟨some "Right", [⟨0⟩], []⟩,
   .register ⟨some "Both", [⟨1⟩, ⟨2⟩], []⟩,
   .validate ⟨3⟩ doubles config]

/-- What is recorded for the third class has one line on the first one. -/
theorem right_verdict :
    (((Desk.after failing ()).registry.validate ⟨2⟩ doubles config).value ()).1 = .failure
      "Doubles fails the prerequisites to be a Right\n\nOdd already failed for Doubles" := by
  decide +kernel

theorem right_shows_no_block (generator name report : String) :
    ¬ (((Desk.after failing ()).registry.validate ⟨2⟩ doubles config).value ()).1.Shows
      (Hierarchy.ownBlock generator name report) := by
  rintro ⟨shown, heq, hblock⟩
  rw [right_verdict] at heq
  obtain rfl := Verdict.failure.inj heq
  have hheading := (Hierarchy.heading_infix_ownBlock generator name report).trans hblock
  exact absurd hheading (by decide +kernel)

theorem right_fails :
    (((Desk.after failing ()).registry.validate ⟨2⟩ doubles config).value ()).1 ≠ .success := by
  rw [right_verdict]
  exact Verdict.noConfusion

/-- A failure need not show the block of any class: the request on the third class names the first
one, and shows nothing of its law. -/
theorem no_block_shown :
    ¬ ∀ (qs : List (Request Unit Unit Nat)) (s₀ s : Unit) (id : ClassId) (g : Generator Unit Nat)
        (c : Config),
        let r := (Desk.after qs s₀).registry
        let verdict := ((r.validate id g c).value s).1
        id.index < r.hierarchy.size → verdict ≠ .success →
          ∃ d report, r.hierarchy.Descends id d ∧
            verdict.Shows (Hierarchy.ownBlock g.name (r.hierarchy.nameOf d) report) := by
  intro hall
  obtain ⟨d, report, -, hs⟩ :=
    hall failing () () ⟨2⟩ doubles config (by decide +kernel) right_fails
  exact right_shows_no_block _ _ _ hs

/-- The third class fails with the line for an ancestor, and the request on the fourth one showed
why. -/
theorem right_recalls_odd :
    let h := (Desk.after failing ()).registry.hierarchy
    let verdict := (((Desk.after failing ()).registry.validate ⟨2⟩ doubles config).value ()).1
    let made := Desk.history failing () ++
      ((Desk.after failing ()).registry.validate ⟨2⟩ doubles config).events ()
    ∃ p name, p ∈ h.ancestors ⟨2⟩ ∧ verdict.Shows (Hierarchy.againText (h.nameOf p) name) ∧
      ∃ x ∈ Desk.validations failing (), x.generator.id = doubles.id ∧
        h.ShowsBroken doubles.id (· = x.generator.name) made p x.verdict := by
  intro h verdict made
  rcases Desk.failure_shows_broken failing () () ⟨2⟩ doubles config (by decide +kernel)
      right_fails with
    ⟨d, name, report, -, -, -, hs⟩ | ⟨p, name, hp, -, hline, hx⟩
  · exact absurd hs (right_shows_no_block _ _ _)
  · exact ⟨p, name, hp, hline, hx⟩

end Diamond

end Lawbook
