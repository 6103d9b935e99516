/-
Lawbook/Proofs/Skipping.lean

Skipping: what a success says about the checks that were made.

Records do not say with which configuration they were made.  So a request that skips no laws can
be answered from a check that was skipped (`Diamond.skipped_reused`).  What a success does say is
that the laws of the class and of each ancestor were checked for the generator exactly once, with a
success, and that this check was a real one unless an earlier request that skips laws made it
(`Desk.success_checked`).

The account of a record has one opening of its class, and the opening lies either in the request
itself or in one of the validations before it; there it has the skip switch of that validation.
-/
import Lawbook.Proofs.Account
import Lawbook.Proofs.Validations

namespace Lawbook

open Event

variable {κ σ α : Type} [Inspectable α]

/-- Only registered classes succeed. -/
theorem Registry.lt_size_of_success {r : Registry σ α} {id : ClassId} {g : Generator σ α}
    {c : Config} {s : σ} (hv : ((r.validate id g c).value s).1 = .success) :
    id.index < r.hierarchy.size := by
  by_contra hid
  have hf := Verdict.isSuccess_fail (ClassError.unknownClass id).message
  rw [Run.value, Registry.validate_unknown r id g c s hid] at hv
  rw [Verdict.isSuccess_iff.2 hv] at hf
  cases hf

/-- After a request on a class that succeeds, the laws of the class and of each ancestor were
checked once for the generator, for some handle and configuration, and held. -/
theorem Audited.exists_check_of_success {Asks : Generator σ α → Config → Prop} {r : Registry σ α}
    {es : List (Event α)} (ha : Audited Asks r (work es)) {k : GeneratorId} {id d : ClassId}
    (hid : r.ledger.verdict? k id = some .success) (hd : r.hierarchy.Descends id d) :
    closings k d es = [.success] ∧ ∃ skipped, openings k d es = [skipped] := by
  have hs := ha.success_of_descends hid hd
  obtain ⟨g, c, s, cls, rfl, -, hacc⟩ := ha.accounted k d _ hs
  have hown := (hacc.eq_success_iff.1 rfl).1
  have hopen := hacc.openings_eq
  have hclose := hacc.closings_eq
  rw [openings_work] at hopen
  rw [closings_work, hown] at hclose
  exact ⟨hclose, c.skip, hopen⟩

/-- **A success without skipping stands on one check of each class, real or skipped before.**
After any run of operations, let a request whose configuration skips no laws succeed.  Then for the
requested class and each of its ancestors, the laws of the class itself were checked exactly once
for the generator in the run and the request together, and they held.  The check was a real one,
unless an earlier request on this generator made it with a configuration that skips laws. -/
theorem Desk.success_checked [DecidableEq κ] (qs : List (Request κ σ α)) (s₀ s : σ) (id : ClassId)
    (g : Generator σ α) (c : Config) (hc : c.skip = false)
    (hv : (((Desk.after qs s₀).registry.validate id g c).value s).1 = .success) (d : ClassId)
    (hd : (Desk.after qs s₀).registry.hierarchy.Descends id d) :
    let made := Desk.history qs s₀ ++ ((Desk.after qs s₀).registry.validate id g c).events s
    closings g.id d made = [.success] ∧
      (openings g.id d made = [false] ∨
        openings g.id d made = [true] ∧ ∃ x ∈ Desk.validations qs s₀,
          x.generator.id = g.id ∧ x.config.skip = true ∧ opened d g.id true ∈ x.events) := by
  intro made
  obtain ⟨plan, hp⟩ := Registry.validate_settles (Desk.after qs s₀).registry id g c s
    (Registry.lt_size_of_success hv)
  have ha := Desk.after_validate_audited qs s₀ s id g c
  have hid := hp.recorded
  rw [hv] at hid
  obtain ⟨hclose, skipped, hopen⟩ := ha.exists_check_of_success hid (hp.hierarchy_eq.symm ▸ hd)
  refine ⟨hclose, ?_⟩
  cases skipped with
  | false => exact .inl hopen
  | true =>
    refine .inr ⟨hopen, ?_⟩
    have hm : opened d g.id true ∈ made := by
      rw [← mem_openings_iff, show openings g.id d made = [true] from hopen]
      exact List.mem_singleton.2 rfl
    rcases List.mem_append.1 hm with hm | hm
    · obtain ⟨x, hx, hxe⟩ := Desk.exists_validation_of_mem_history hm rfl
      obtain ⟨hk, hskip⟩ := x.of_mem_opened hxe
      exact ⟨x, hx, hk, hskip, hxe⟩
    · -- the request itself skips nothing
      let x : Validation σ α := ⟨(Desk.after qs s₀).registry, s, id, g, c⟩
      have hskip := (x.of_mem_opened hm).2
      rw [show x.config.skip = false from hc] at hskip
      cases hskip

/-! ### A skipped check that is taken for a real one -/

namespace Diamond

/-- A class whose law all values of `doubles` break, and one that extends it and has no laws.  The
first one is validated without a look at its law. -/
def trusting : List (Request Unit Unit Nat) :=
  [.register ⟨some "Odd", [], [.obeys odd]⟩,
   .register ⟨some "Plain", [⟨0⟩], []⟩,
   .validate ⟨0⟩ doubles { config with skip := true }]

theorem plain_success :
    (((Desk.after trusting ()).registry.validate ⟨1⟩ doubles config).value ()).1 = .success := by
  decide +kernel

theorem plain_descends :
    (Desk.after trusting ()).registry.hierarchy.Descends ⟨1⟩ ⟨0⟩ :=
  .of_parent (by decide +kernel) .refl

/-- A success without skipping does not come with a real check of each class: the second class
succeeds, and the law of the first one was never looked at. -/
theorem skipped_reused :
    ¬ ∀ (qs : List (Request Unit Unit Nat)) (s₀ s : Unit) (id : ClassId) (g : Generator Unit Nat)
        (c : Config),
        let r := (Desk.after qs s₀).registry
        c.skip = false → ((r.validate id g c).value s).1 = .success →
          ∀ d, r.hierarchy.Descends id d →
            false ∈ openings g.id d (Desk.history qs s₀ ++ (r.validate id g c).events s) := by
  intro hall
  have hm := hall trusting () () ⟨1⟩ doubles config rfl plain_success ⟨0⟩ plain_descends
  have hn : ¬ false ∈ openings doubles.id ⟨0⟩ (Desk.history trusting () ++
      ((Desk.after trusting ()).registry.validate ⟨1⟩ doubles config).events ()) := by
    decide +kernel
  exact hn hm

/-- The second class succeeds, and the one check of the first class is that of an earlier request
that skips laws. -/
theorem odd_skipped_before :
    let made := Desk.history trusting () ++
      ((Desk.after trusting ()).registry.validate ⟨1⟩ doubles config).events ()
    closings doubles.id ⟨0⟩ made = [.success] ∧ openings doubles.id ⟨0⟩ made = [true] ∧
      ∃ x ∈ Desk.validations trusting (), x.generator.id = doubles.id ∧ x.config.skip = true ∧
        opened ⟨0⟩ doubles.id true ∈ x.events := by
  intro made
  have hmade : openings doubles.id ⟨0⟩ made = [true] := by decide +kernel
  obtain ⟨hclose, hreal | hskipped⟩ := Desk.success_checked trusting () () ⟨1⟩ doubles config rfl
    plain_success ⟨0⟩ plain_descends
  · rw [show openings doubles.id ⟨0⟩ made = [false] from hreal] at hmade
    cases hmade
  · exact ⟨hclose, hskipped⟩

end Diamond

end Lawbook
