/-
Lawbook/Proofs/Longer.lean

Longer checks: what it changes to ask for more rounds.

The first rounds of a longer check are the rounds of the shorter one, in the same states of the host
(`Law.rounds_add`).  So a law that fails early fails in the same way however many rounds are asked
for, and a law that holds for longer makes the same calls up to the end of the shorter check
(`Law.check_prolongs`).

For constraints and classes there is no such prefix: in a longer check the first law leaves the host
in another state for the second one.  But where generators and predicates do not depend on the host,
each law fails if it failed with fewer rounds, and a formula without negations is monotone in the
values of its laws (`Constraint.isTrue_mono`).  So what holds for longer holds for less.

Main result: `longer_checks_prolong`.
-/
import Lawbook.Proofs.Direct
import Lawbook.Proofs.Paired
import Lawbook.Proofs.Printed
import Lawbook.Proofs.Search

namespace Lawbook

open Event Run

variable {σ α : Type}

/-- The configuration with another number of rounds. -/
def Config.sized (c : Config) (n : Nat) : Config := { c with sampleSize := n }

variable [Inspectable α]

/-! ### One law -/

namespace Law

variable {law : Law σ α} {g : Generator σ α} {c : Config} {s t : σ} {m : Nat}
variable {es : List (Event α)}

variable (law g) in
/-- More rounds are some rounds and, unless one of those fails, the others behind them. -/
theorem rounds_add (m k i : Nat) : law.rounds g (m + k) i = law.rounds g m i >>= fun
    | some verdict => pure (some verdict)
    | none => law.rounds g k (i + m) := by
  -- the number of the first round is part of what is claimed, as it goes up with every round
  induction m generalizing i with
  | zero => rw [Nat.zero_add, rounds, Run.pure_bind, Nat.add_zero]
  | succ m ih =>
    rw [Nat.succ_add, rounds, rounds, Run.bind_assoc]
    refine congrArg _ (funext fun found => ?_)
    cases found with
    | none => exact (ih (i + 1)).trans (by rw [Nat.succ_add_eq_add_succ])
    | some verdict => rw [Run.pure_bind]

/-- Rounds that fail end every check that is at least as long. -/
theorem check_of_rounds_some {verdict : Verdict} (hc : c.skip = false)
    (hr : law.rounds g m 0 s = (some verdict, t, es)) (k : Nat) :
    law.check g (c.sized (m + k)) s = (verdict, t, es) := by
  -- what does not skip with one number of rounds does not with another
  have hskip : (c.sized (m + k)).skip = false := hc
  rw [check_of_not_skip hskip]
  simp [Config.sized, rounds_add, hr]

/-- Rounds that pass begin every check that is at least as long. -/
theorem exists_events_of_rounds_none (hc : c.skip = false)
    (hr : law.rounds g m 0 s = (none, t, es)) (k : Nat) :
    ∃ later, (law.check g (c.sized (m + k))).events s = es ++ later := by
  have hskip : (c.sized (m + k)).skip = false := hc
  rw [check_of_not_skip hskip, Config.sized, rounds_add, Run.bind_assoc, events_bind, Run.events,
    hr]
  exact ⟨_, rfl⟩

/-- If no round fails, the check succeeds. -/
theorem check_of_rounds_none (hc : c.skip = false) (hr : law.rounds g m 0 s = (none, t, es)) :
    law.check g (c.sized m) s =
      (.success, t, es ++ [.logged (.lawHeld law.name g.name m)]) := by
  have hskip : (c.sized m).skip = false := hc
  rw [check_of_not_skip hskip]
  simp [Config.sized, hr]

/-- From the state `s` of the host, the check of a law with the second configuration prolongs that
with the first one. -/
structure Prolongs (law : Law σ α) (g : Generator σ α) (c c' : Config) (s : σ) : Prop where
  /-- A failure is the same in all: the report, the state of the host, the calls and what is
  logged. -/
  failed : (law.check g c).value s ≠ .success → law.check g c' s = law.check g c s
  succeeded : (law.check g c').value s = .success → (law.check g c).value s = .success
  calls_prefix :
    Event.calls ((law.check g c).events s) <+: Event.calls ((law.check g c').events s)

/-- Checks of a law that are the same prolong each other. -/
theorem prolongs_of_eq {c' : Config} (he : law.check g c' s = law.check g c s) :
    law.Prolongs g c c' s where
  failed := fun _ => he
  succeeded := fun hs => by
    rw [value, he] at hs
    exact hs
  calls_prefix := by
    have hevents : (law.check g c').events s = (law.check g c).events s := by
      rw [Run.events, Run.events, he]
    exact hevents ▸ List.prefix_rfl

/-- **A check with more rounds prolongs one with fewer rounds.** -/
theorem check_prolongs (law : Law σ α) (g : Generator σ α) (c : Config) (s : σ) {m n : Nat}
    (hmn : m ≤ n) : law.Prolongs g (c.sized m) (c.sized n) s := by
  obtain ⟨k, rfl⟩ := Nat.exists_eq_add_of_le hmn
  cases hc : c.skip with
  | true =>
    have hskip : ∀ size, (c.sized size).skip = true := fun _ => hc
    exact prolongs_of_eq (by rw [law.check_of_skip g (hskip _), law.check_of_skip g (hskip _)])
  | false =>
    rcases hr : law.rounds g m 0 s with ⟨found, t, es⟩
    cases found with
    | some verdict =>
      exact prolongs_of_eq
        (by rw [check_of_rounds_some hc hr k, ← check_of_rounds_some hc hr 0, Nat.add_zero])
    | none =>
      have hcheck := check_of_rounds_none hc hr
      have hsuccess : (law.check g (c.sized m)).value s = .success := by rw [value, hcheck]
      refine ⟨fun hf => absurd hsuccess hf, fun _ => hsuccess, ?_⟩
      -- what the shorter check logs in the end is no call
      obtain ⟨later, hlater⟩ := exists_events_of_rounds_none hc hr k
      rw [hlater, Run.events, hcheck, Event.calls, Event.calls, List.filter_append,
        List.filter_append]
      exact ⟨later.filter isCall, by simp [isCall]⟩

end Law

/-! ### Formulas -/

namespace Constraint

variable {g : Generator σ α} {value : Nat → Except GeneratorError α} {a : Constraint σ α}
variable {m n : Nat}

theorem Reading.relates_le : Reading.Relates (· ≤ ·) .truth .truth where
  all := fun bs cs hbc => by
    induction hbc with
    | nil => exact Bool.le_refl _
    | cons hbc _ ih =>
      intro hall
      obtain ⟨hb, hbs⟩ := Bool.and_eq_true_iff.1 hall
      exact Bool.and_eq_true_iff.2 ⟨hbc hb, ih hbs⟩
  any := fun bs cs hbc => by
    induction hbc with
    | nil => exact Bool.le_refl _
    | cons hbc _ ih =>
      intro hany
      exact Bool.or_eq_true_iff.2 ((Bool.or_eq_true_iff.1 hany).imp hbc ih)
  unknown := Bool.le_refl _

omit [Inspectable α] in
/-- A formula without negations stays true where more of its laws are. -/
theorem isTrue_mono (a : Constraint σ α) {bs cs : List Bool} (hbc : List.Forall₂ (· ≤ ·) bs cs) :
    a.isTrue bs ≤ a.isTrue cs :=
  rel_read Reading.relates_le a hbc

/-- What holds for longer holds for less. -/
theorem success_of_longer (ha : a.Steady) (hg : g.Yields value) (hmn : m ≤ n) {c : Config}
    {s t : σ} (hn : (a.check g (c.sized n)).value t = .success) :
    (a.check g (c.sized m)).value s = .success := by
  have halike : ∀ k, ∀ law ∈ a.leaves,
      Alike (law.check g (c.sized k)) (law.check g (c.sized k)) :=
    fun k law hl => Law.alike_check (ha law hl) hg hg (c.sized k)
  -- the laws of both checks can be taken to start in the one state `s`, whatever came before them
  rw [check_eq_success_iff_isTrue, Law.checkEach, Alike.value_mapM (halike _) t s] at hn
  rw [check_eq_success_iff_isTrue, Law.checkEach, Alike.value_mapM (halike _) s s]
  refine isTrue_mono a ?_ hn
  rw [List.map_map, List.map_map, List.forall₂_map_left_iff, List.forall₂_map_right_iff,
    List.forall₂_same]
  intro law _ hlaw
  exact Verdict.isSuccess_iff.2
    ((law.check_prolongs g c s hmn).succeeded (Verdict.isSuccess_iff.1 hlaw))

end Constraint

/-! ### Classes -/

namespace Hierarchy

variable {h : Hierarchy σ α} {g : Generator σ α} {value : Nat → Except GeneratorError α}
variable {id : ClassId} {c : Config}

omit [Inspectable α] in
theorem empty_grows (h : Hierarchy σ α) : empty.Grows h :=
  fun _ _ hc => nomatch hc

/-- Without any record, a request succeeds exactly if the class is registered and holds. -/
theorem validate_iff_holds (hs : h.Steady id) (hg : g.Yields value) (s t : σ) :
    (((⟨h, .empty⟩ : Registry σ α).validate id g c).value s).1 = .success ↔
      id.index < h.size ∧ h.Holds g c t id := by
  have ha : Audited (fun _ _ => True) ⟨h, .empty⟩ [] := (Audited.empty _).grow h.empty_grows
  exact ha.validate_fresh_iff_holds hg (fun _ => rfl) hs c s t

/-- A class that holds for longer holds for less. -/
theorem Holds.of_longer {m n : Nat} {s t : σ} (hs : h.Steady id) (hg : g.Yields value)
    (hmn : m ≤ n) (hh : h.Holds g (c.sized n) t id) : h.Holds g (c.sized m) s id :=
  fun d cls hd hc => Constraint.success_of_longer (hs d cls hd hc) hg hmn (hh d cls hd hc)

end Hierarchy

/-- **More rounds find what fewer rounds find.**  For every law, generator and state of the host, a
check with more rounds prolongs one with fewer.  If the values of the generator depend on the round
only and predicates say the same in all states of the host, then a constraint that fails with fewer
rounds fails with more rounds, and so does a class for which nothing is recorded, whatever states of
the host the two start in. -/
theorem longer_checks_prolong (c : Config) {m n : Nat} (hmn : m ≤ n) :
    (∀ (law : Law σ α) (g : Generator σ α) (s : σ), law.Prolongs g (c.sized m) (c.sized n) s) ∧
      ∀ (g : Generator σ α) (value : Nat → Except GeneratorError α), g.Yields value → ∀ s t : σ,
        (∀ a : Constraint σ α, a.Steady → (a.check g (c.sized m)).value s ≠ .success →
          (a.check g (c.sized n)).value t ≠ .success) ∧
        ∀ (h : Hierarchy σ α) (id : ClassId), h.Steady id →
          (((⟨h, .empty⟩ : Registry σ α).validate id g (c.sized m)).value s).1 ≠ .success →
          (((⟨h, .empty⟩ : Registry σ α).validate id g (c.sized n)).value t).1 ≠ .success := by
  refine ⟨fun law g s => law.check_prolongs g c s hmn, fun g value hg s t => ⟨?_, ?_⟩⟩
  · exact fun a ha hm hn => hm (Constraint.success_of_longer ha hg hmn hn)
  · intro h id hs hm hn
    rw [Hierarchy.validate_iff_holds hs hg t t] at hn
    exact hm ((Hierarchy.validate_iff_holds hs hg s s).2 ⟨hn.1, hn.2.of_longer hs hg hmn⟩)

/-! ### Two generators that are asked for longer -/

namespace Countdown

/-- A generator whose values depend on the round only. -/
def doubles : Generator Nat Nat := ⟨⟨1⟩, "Doubles", fun i => pure (.ok (2 * i))⟩

/-- The law that numbers are below six. -/
def few : Law Nat Nat := ⟨"few", 1, fun values => pure (values.all fun n => n < 6)⟩

/-- A choice of this law only, and another part that holds. -/
def choice : Constraint Nat Nat := .all [.any [.obeys few], .trivial]

/-- A class with this choice, and one that extends it. -/
def hierarchy : Hierarchy Nat Nat :=
  (Hierarchy.empty.push ⟨"Few", [], choice⟩ (by simp)).push ⟨"Fewer", [⟨0⟩], .trivial⟩
    (by simp [Hierarchy.empty, Hierarchy.push, Hierarchy.size])

theorem choice_steady : choice.Steady := by
  intro law hlaw
  obtain rfl : law = few := by simpa [choice, Constraint.leaves, Constraint.leavesOfEach,
    Constraint.trivial] using hlaw
  exact fun _ _ _ => rfl

theorem hierarchy_steady (id : ClassId) : hierarchy.Steady id :=
  Hierarchy.steady_of_forall_mem
    (by simp [hierarchy, Hierarchy.empty, Hierarchy.push, choice_steady]) id

/-- What fails with four rounds fails with nine. -/
theorem nine_rounds_prolong_four : 4 ≤ 9 ∧
    falling.check countdown (config.sized 9) 5 = falling.check countdown (config.sized 4) 5 ∧
    (choice.check doubles (config.sized 9)).value 7 ≠ .success ∧
    (((⟨hierarchy, .empty⟩ : Registry Nat Nat).validate ⟨1⟩ doubles (config.sized 9)).value 7).1 ≠
      .success := by
  have hfour : 4 ≤ 9 := by decide
  obtain ⟨hlaws, hsteady⟩ := @longer_checks_prolong Nat Nat _ config 4 9 hfour
  obtain ⟨hchoices, hclasses⟩ := hsteady doubles (fun i => .ok (2 * i)) (fun _ _ => rfl) 5 7
  refine ⟨hfour, (hlaws falling countdown 5).failed ?_, hchoices choice choice_steady ?_,
    hclasses hierarchy ⟨1⟩ (hierarchy_steady ⟨1⟩) ?_⟩
  · decide +kernel
  · decide +kernel
  · decide +kernel

end Countdown

end Lawbook
