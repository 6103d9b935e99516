/-
Lawbook/Proofs/Samples.lean

Samples: what a check says of the tuples that its rounds draw.

Where no call of a generator fails, its rounds draw tuples whatever they are drawn for, each in the
state that the one before it left behind (`Generator.Draws`).  A law decides a property of tuples
if its predicate always returns, says whether the property holds, and leaves the host alone.  Then
nothing but the tuples matters to a check: it passes over those that have the property, ends at the
first that does not, and shows that one.

Main results: `Law.Decides.exactOn`, and `Law.Decides.check_eq_success` for a property that all
tuples have.
-/
import Lawbook.Proofs.Search

namespace Lawbook

open Event Run

variable {σ α : Type}

/-! ### Tuples on which predicates are called -/

namespace Event

/-- The tuple on which a predicate is called. -/
def tuple? : Event α → Option (List α)
  | judged _ values => some values
  | _ => none

/-- The tuples on which predicates are called, in order. -/
def tuples (es : List (Event α)) : List (List α) :=
  es.filterMap tuple?

/-- The tuples that are judged in two parts of a run are those of both, in order. -/
theorem tuples_append (es es' : List (Event α)) : tuples (es ++ es') = tuples es ++ tuples es' :=
  List.filterMap_append

theorem tuples_replicate_drew (k : GeneratorId) (i n : Nat) :
    tuples (List.replicate n (drew k i : Event α)) = [] :=
  List.filterMap_eq_nil_iff.2 fun _ he => List.eq_of_mem_replicate he ▸ rfl

end Event

theorem Law.tuples_calls (law : Law σ α) (g : Generator σ α) (i : Nat) (values : List α) :
    tuples (law.calls g i values) = [values] := by
  rw [calls, tuples_append, tuples_replicate_drew]
  rfl

/-- The tuples that a check judges are those of its rounds. -/
theorem Law.tuples_callsEach (law : Law σ α) (g : Generator σ α) (i : Nat)
    (drawn : List (List α)) : tuples (law.callsEach g i drawn) = drawn := by
  induction drawn generalizing i with
  | nil => rfl
  | cons values drawn ih =>
    rw [callsEach, tuples_append, tuples_calls, ih]
    rfl

/-! ### Tuples that are drawn -/

namespace Generator

/-- No call fails. -/
def NeverFails (g : Generator σ α) : Prop :=
  ∀ i s, ∃ a t, g.get i s = (.ok a, t)

/-- The rounds from `i` on draw `n` values each, one tuple after the other. -/
inductive Draws (g : Generator σ α) (n : Nat) : Nat → σ → List (List α) → σ → Prop
  | done (i : Nat) (s : σ) : Draws g n i s [] s
  | next {i : Nat} {s s' t : σ} {values : List α} {drawn : List (List α)} :
      values.length = n → Returns (g.get i) s values s' → Draws g n (i + 1) s' drawn t →
        Draws g n i s (values :: drawn) t

variable {g : Generator σ α} {i n : Nat} {s t : σ} {values : List α}
variable {before drawn after : List (List α)}

/-- A generator that never fails has a value for each place of a round. -/
theorem NeverFails.exists_returns (hg : g.NeverFails) (i n : Nat) (s : σ) :
    ∃ values t, values.length = n ∧ Returns (g.get i) s values t := by
  rcases returns_or_fails (g.get i) n s with hret | ⟨_, u, e, t, _, _, he⟩
  · exact hret
  · obtain ⟨a, t', ha⟩ := hg i u
    rw [ha] at he
    cases he

/-- A generator that never fails has tuples for any number of rounds. -/
theorem NeverFails.exists_draws (hg : g.NeverFails) (n size i : Nat) (s : σ) :
    ∃ drawn t, drawn.length = size ∧ g.Draws n i s drawn t := by
  induction size generalizing i s with
  | zero => exact ⟨[], s, rfl, .done i s⟩
  | succ size ih =>
    obtain ⟨values, s', hlen, hret⟩ := hg.exists_returns i n s
    obtain ⟨drawn, t, hsize, hdraws⟩ := ih (i + 1) s'
    exact ⟨values :: drawn, t, congrArg (· + 1) hsize, .next hlen hret hdraws⟩

theorem Draws.length_eq (hd : g.Draws n i s drawn t) (hv : values ∈ drawn) : values.length = n := by
  induction hd with
  | done => exact absurd hv List.not_mem_nil
  | next hlen _ _ ih =>
    rcases List.mem_cons.1 hv with rfl | hv
    · exact hlen
    · exact ih hv

/-- A tuple among others is drawn in the state that those before it leave behind. -/
theorem Draws.split (hd : g.Draws n i s (before ++ values :: after) t) :
    ∃ u u', g.Draws n i s before u ∧ values.length = n ∧
      Returns (g.get (i + before.length)) u values u' := by
  induction before generalizing i s with
  | nil =>
    cases hd with
    | next hlen hret _ => exact ⟨s, _, .done i s, hlen, hret⟩
  | cons first before ih =>
    cases hd with
    | next hlen hret hrest =>
      obtain ⟨u, u', hbefore, hlen', hret'⟩ := ih hrest
      rw [Nat.add_assoc, Nat.add_comm 1] at hret'
      exact ⟨u, u', .next hlen hret hbefore, hlen', hret'⟩

end Generator

/-! ### Laws that decide a property of tuples -/

namespace Law

/-- The predicate says whether a tuple has a property, and does nothing else. -/
def Decides (law : Law σ α) (P : List α → Prop) : Prop :=
  ∀ values, values.length = law.arity →
    ∃ b, (∀ s, law.predicate values s = (.ok b, s)) ∧ (b = true ↔ P values)

variable {law : Law σ α} {g : Generator σ α} {P : List α → Prop} {i : Nat} {s t : σ}
variable {before drawn after : List (List α)} {values : List α} {c : Config}

/-- A predicate that decides a property answers with it, in all states of the host. -/
theorem Decides.predicate_of_holds (hl : law.Decides P) (hlen : values.length = law.arity)
    (hP : P values) (s : σ) : law.predicate values s = (.ok true, s) := by
  obtain ⟨b, hb, hiff⟩ := hl values hlen
  rw [hb s, hiff.2 hP]

/-- Where the property does not hold, the predicate answers `false` and leaves the host alone. -/
theorem Decides.predicate_of_not_holds (hl : law.Decides P) (hlen : values.length = law.arity)
    (hP : ¬ P values) (s : σ) : law.predicate values s = (.ok false, s) := by
  obtain ⟨b, hb, hiff⟩ := hl values hlen
  rw [hb s, Bool.eq_false_iff.2 (mt hiff.1 hP)]

/-- Rounds pass on tuples that have the property. -/
theorem Decides.passEach (hl : law.Decides P) (hd : g.Draws law.arity i s drawn t)
    (hP : ∀ values ∈ drawn, P values) : law.PassEach g i s drawn t := by
  induction hd with
  | done i s => exact .done i s
  | next hlen hret _ ih =>
    obtain ⟨hfirst, hrest⟩ := List.forall_mem_cons.1 hP
    exact .next ⟨hlen, _, hret, hl.predicate_of_holds hlen hfirst _⟩ (ih hrest)

variable [Inspectable α]

/-- A round breaks on a tuple without the property, and shows it. -/
theorem Decides.breaks (hl : law.Decides P) (hlen : values.length = law.arity)
    (hret : Returns (g.get i) s values t) (hP : ¬ P values) :
    law.Breaks g i s (law.counterexample values) t
      (law.calls g i values ++ [.logged (.lawViolated law.name g.name i)]) :=
  .broken hlen hret (hl.predicate_of_not_holds hlen hP t) rfl

/-- A check of which all tuples have the property succeeds, and calls the predicate on each. -/
theorem Decides.check_of_forall (hl : law.Decides P) (hc : c.skip = false)
    (hsize : drawn.length = c.sampleSize) (hd : g.Draws law.arity 0 s drawn t)
    (hP : ∀ values ∈ drawn, P values) :
    (law.check g c).value s = .success ∧ tuples ((law.check g c).events s) = drawn := by
  have hends := check_of_ends (.held hc hsize (hl.passEach hd hP))
  rw [value, Run.events, hends]
  refine ⟨rfl, ?_⟩
  rw [tuples_append, tuples_callsEach]
  exact List.append_nil drawn

/-- A check ends at the first tuple without the property. -/
theorem Decides.check_of_first (hl : law.Decides P) (hc : c.skip = false)
    (hsize : (before ++ values :: after).length = c.sampleSize)
    (hd : g.Draws law.arity 0 s (before ++ values :: after) t)
    (hbefore : ∀ values ∈ before, P values) (hP : ¬ P values) :
    (law.check g c).value s = law.counterexample values ∧
      tuples ((law.check g c).events s) = before ++ [values] := by
  obtain ⟨u, u', hdraws, hlen, hret⟩ := hd.split
  rw [Nat.zero_add] at hret
  have hlt : before.length < c.sampleSize := by
    rw [← hsize, List.length_append, List.length_cons]
    omega
  have hends := check_of_ends
    (.failed hc hlt (hl.passEach hdraws hbefore) (hl.breaks hlen hret hP))
  rw [value, Run.events, hends]
  refine ⟨rfl, ?_⟩
  rw [tuples_append, tuples_append, tuples_callsEach, tuples_calls]
  rfl

end Law

/-! ### Exactness -/

/-- A list with a member that lacks a property has a first one. -/
theorem exists_first_of_not_forall {β : Type} {P : β → Prop} {xs : List β}
    (hx : ¬ ∀ x ∈ xs, P x) :
    ∃ before x after, xs = before ++ x :: after ∧ (∀ y ∈ before, P y) ∧ ¬ P x := by
  induction xs with
  | nil => exact absurd (List.forall_mem_nil P) hx
  | cons y ys ih =>
    by_cases hy : P y
    · have hys : ¬ ∀ x ∈ ys, P x := fun hall => hx (List.forall_mem_cons.2 ⟨hy, hall⟩)
      obtain ⟨before, x, after, rfl, hbefore, hP⟩ := ih hys
      exact ⟨y :: before, x, after, rfl, List.forall_mem_cons.2 ⟨hy, hbefore⟩, hP⟩
    · exact ⟨[], y, ys, rfl, List.forall_mem_nil P, hy⟩

variable [Inspectable α]

theorem Constraint.check_obeys (law : Law σ α) (g : Generator σ α) (c : Config) :
    (obeys law).check g c = law.check g c := by
  rw [check]

/-- What the check of a constraint of the given name and arity comes to on the tuples that its
rounds draw, if it is exact for a property of tuples. -/
structure Constraint.ExactOn (a : Constraint σ α) (name : String) (arity : Nat)
    (P : List α → Prop) (g : Generator σ α) (c : Config) (s : σ) (drawn : List (List α)) :
    Prop where
  /-- There is a tuple for each round, as the generator yields them one after the other. -/
  length_eq : drawn.length = c.sampleSize
  draws : ∃ t, g.Draws arity 0 s drawn t
  /-- The constraint holds exactly if all of them have the property. -/
  success_iff : (a.check g c).value s = .success ↔ ∀ values ∈ drawn, P values
  /-- In that case all of them are tried. -/
  tries_all : (∀ values ∈ drawn, P values) → tuples ((a.check g c).events s) = drawn
  /-- Otherwise the first without the property is the last that is tried, and it is shown. -/
  shows_first : ∀ before values after, drawn = before ++ values :: after →
    (∀ values ∈ before, P values) → ¬ P values →
    (a.check g c).value s = Verdict.fail
        s!"Predicate {name} failed with params {Text.listing (values.map Inspectable.inspect)}" ∧
      tuples ((a.check g c).events s) = before ++ [values]

namespace Law.Decides

variable {law : Law σ α} {g : Generator σ α} {P : List α → Prop} {c : Config}

/-- **A law that decides a property is exact for it** on the tuples of a generator that never
fails. -/
theorem exactOn (hl : law.Decides P) (harity : law.arity ≠ 0) (hg : g.NeverFails)
    (hc : c.skip = false) (s : σ) :
    ∃ drawn, (Constraint.obeys law).ExactOn law.name law.arity P g c s drawn := by
  obtain ⟨drawn, t, hsize, hdraws⟩ := hg.exists_draws law.arity c.sampleSize 0 s
  -- the first tuple without the property decides what the check comes to
  have hfirst : ∀ before values after, drawn = before ++ values :: after →
      (∀ values ∈ before, P values) → ¬ P values →
      (law.check g c).value s = law.counterexample values ∧
        tuples ((law.check g c).events s) = before ++ [values] := by
    rintro before values after rfl hbefore hP
    exact hl.check_of_first hc hsize hdraws hbefore hP
  refine ⟨drawn, hsize, ⟨t, hdraws⟩, ?_, ?_, ?_⟩
  · rw [Constraint.check_obeys]
    constructor
    · intro hsucc
      by_contra hnot
      obtain ⟨before, values, after, he, hbefore, hP⟩ := exists_first_of_not_forall hnot
      rw [(hfirst before values after he hbefore hP).1, counterexample_eq] at hsucc
      cases hsucc
    · exact fun hP => (hl.check_of_forall hc hsize hdraws hP).1
  · rw [Constraint.check_obeys]
    exact fun hP => (hl.check_of_forall hc hsize hdraws hP).2
  · rw [Constraint.check_obeys]
    intro before values after he hbefore hP
    have hlen : values.length = law.arity :=
      hdraws.length_eq (he ▸ List.mem_append_right before List.mem_cons_self)
    have hne : values.isEmpty = false := by
      rw [List.isEmpty_eq_false_iff]
      rintro rfl
      exact harity hlen.symm
    obtain ⟨hvalue, htuples⟩ := hfirst before values after he hbefore hP
    rw [counterexample, hne, if_neg Bool.false_ne_true] at hvalue
    exact ⟨hvalue, htuples⟩

/-- A law whose property all tuples have succeeds, skipped or not. -/
theorem check_eq_success (hl : law.Decides P)
    (hP : ∀ values, values.length = law.arity → P values) (hg : g.NeverFails) (c : Config) (s : σ) :
    (law.check g c).value s = .success := by
  cases hc : c.skip with
  | true => rw [value, law.check_of_skip g hc s]
  | false =>
    obtain ⟨drawn, t, hsize, hdraws⟩ := hg.exists_draws law.arity c.sampleSize 0 s
    exact (hl.check_of_forall hc hsize hdraws fun values hv => hP values (hdraws.length_eq hv)).1

end Law.Decides

end Lawbook
