/-
Lawbook/Proofs/Rounds.lean

Rounds: what it takes for a check to pass, and what ends it before.

A round passes if the generator gives every value that the law asks for and the predicate holds of
them.  It breaks if the generator fails on the way, or if the predicate does not hold, fails or
crashes.  So there are three ways in which a check ends (`Law.check_ends`): it is skipped; all of
its rounds pass, each in the state that the one before it left behind; or some rounds pass and the
next one breaks.  In each case its verdict, what it leaves behind and what it calls are known to the
last call.

In the edge rounds a continuous generator builds its values from a constant and draws nothing
(`Continuous.returns_build`).
-/
import Lawbook.Generator.Continuous
import Lawbook.Proofs.Formula

namespace Lawbook

open Event Run

variable {ε σ ω α : Type}

/-! ### Calls that return -/

/-- Calls of `f`, one after the other, return `values` on the way from one state to another. -/
inductive Returns (f : σ → Except ε α × σ) : σ → List α → σ → Prop
  | done (s : σ) : Returns f s [] s
  | next {s s' t : σ} {a : α} {values : List α} :
      f s = (.ok a, s') → Returns f s' values t → Returns f s (a :: values) t

/-- Of some calls, all return, or there is a first one that does not. -/
theorem returns_or_fails (f : σ → Except ε α × σ) (n : Nat) (s : σ) :
    (∃ values t, values.length = n ∧ Returns f s values t) ∨
      ∃ values u e t, values.length < n ∧ Returns f s values u ∧ f u = (.error e, t) := by
  induction n generalizing s with
  | zero => exact .inl ⟨[], s, rfl, .done s⟩
  | succ n ih =>
    rcases hf : f s with ⟨e | a, t⟩
    · exact .inr ⟨[], s, e, t, Nat.succ_pos n, .done s, hf⟩
    · rcases ih t with ⟨values, t', hlen, hret⟩ | ⟨values, u, e, t', hlen, hret, he⟩
      · exact .inl ⟨a :: values, t', congrArg (· + 1) hlen, .next hf hret⟩
      · exact .inr ⟨a :: values, u, e, t', Nat.succ_lt_succ hlen, .next hf hret, he⟩

/-! ### The sample of a round -/

namespace Generator

variable {g : Generator σ α} {i : Nat} {s t t' : σ} {values : List α}

/-- One value of a sample and what comes after it. -/
theorem sample_succ_of_ok {a : α} (n : Nat) (ha : g.get i s = (.ok a, t)) :
    g.sample i (n + 1) s = (((g.sample i n).value t).cons a, (g.sample i n).final t,
      .drew g.id i :: (g.sample i n).events t) := by
  simp [sample, drawAt, ha, value, final, events]

theorem sample_succ_of_error {e : GeneratorError} (n : Nat) (he : g.get i s = (.error e, t)) :
    g.sample i (n + 1) s = (.cut [] e, t, [.drew g.id i]) := by
  simp [sample, drawAt, he]

/-- A sample is complete if all calls return. -/
theorem sample_eq_complete (hr : Returns (g.get i) s values t) :
    g.sample i values.length s =
      (.complete values, t, List.replicate values.length (.drew g.id i)) := by
  induction hr with
  | done s => rfl
  | next ha _ ih =>
    rw [List.length_cons, sample_succ_of_ok _ ha, value, final, events, ih]
    rfl

/-- A sample ends at the first call that does not return. -/
theorem sample_eq_cut {n : Nat} {e : GeneratorError} (hr : Returns (g.get i) s values t)
    (hn : values.length < n) (he : g.get i t = (.error e, t')) :
    g.sample i n s =
      (.cut values e, t', List.replicate (values.length + 1) (.drew g.id i)) := by
  induction hr generalizing n with
  | done s =>
    obtain ⟨n, rfl⟩ := Nat.exists_eq_add_of_lt hn
    rw [List.length_nil, Nat.zero_add, sample_succ_of_error n he]
    rfl
  | next ha _ ih =>
    -- the call that fails is still among the calls that are left
    cases n with
    | zero => exact absurd hn (Nat.not_lt_zero _)
    | succ n =>
      rw [sample_succ_of_ok n ha, value, final, events, ih (Nat.lt_of_succ_lt_succ hn) he]
      rfl

end Generator

/-! ### One round -/

namespace Law

/-- A round passes: all values that the law asks for are returned, and the predicate is called on
them and holds. -/
def Passes (law : Law σ α) (g : Generator σ α) (i : Nat) (s : σ) (values : List α) (t : σ) : Prop :=
  values.length = law.arity ∧
    ∃ u, Returns (g.get i) s values u ∧ law.predicate values u = (.ok true, t)

/-- The calls of a round with all its values. -/
def calls (law : Law σ α) (g : Generator σ α) (i : Nat) (values : List α) : List (Event α) :=
  List.replicate law.arity (.drew g.id i) ++ [.judged law.name values]

variable [Inspectable α] (law : Law σ α) (g : Generator σ α)

/-- A round breaks, with a verdict, the state that is left behind, and what was reported. -/
inductive Breaks (i : Nat) (s : σ) : Verdict → σ → List (Event α) → Prop
  /-- All values are returned, but the predicate does not hold of them, fails or crashes. -/
  | broken {values : List α} {u t : σ} {r : Except Mishap Bool} {verdict : Verdict} :
      values.length = law.arity → Returns (g.get i) s values u →
      law.predicate values u = (r, t) → law.finding values r = some verdict →
      Breaks i s verdict t
        (law.calls g i values ++ [.logged (.lawViolated law.name g.name i)])
  /-- The generator fails before all values are there, and nothing is called after that. -/
  | cut {values : List α} {u t : σ} {e : GeneratorError} :
      values.length < law.arity → Returns (g.get i) s values u → g.get i u = (.error e, t) →
      Breaks i s ((Verdict.fail e.message).both (law.counterexample values)) t
        (List.replicate (values.length + 1) (.drew g.id i) ++
          [.logged (.generatorFailed g.name law.name e)])

variable {law g} {i : Nat} {s t : σ} {values : List α} {verdict : Verdict} {es : List (Event α)}

/-- A finding of nothing means that the predicate held. -/
theorem finding_eq_none_iff {r : Except Mishap Bool} :
    law.finding values r = none ↔ r = .ok true := by
  unfold finding
  split <;> simp

theorem round_of_passes (hp : law.Passes g i s values t) :
    law.round g i s = (none, t, law.calls g i values) := by
  obtain ⟨hlen, u, hret, hpred⟩ := hp
  simp [round, ← hlen, Generator.sample_eq_complete hret, judge, hpred, finding, calls]

theorem round_of_breaks (hb : law.Breaks g i s verdict t es) :
    law.round g i s = (some verdict, t, es) := by
  cases hb with
  | broken hlen hret hpred hf =>
    simp [round, ← hlen, Generator.sample_eq_complete hret, judge, hpred, hf, calls]
  | cut hlen hret he => simp [round, Generator.sample_eq_cut hret hlen he]

/-- A round that breaks is a failure, whatever broke it. -/
theorem Breaks.isSuccess_eq (hb : law.Breaks g i s verdict t es) : verdict.isSuccess = false := by
  cases hb with
  | broken _ _ _ hf => exact isSuccess_of_finding hf
  | cut _ _ _ => rw [Verdict.isSuccess_both, isSuccess_counterexample, Bool.and_false]

variable (law g) in
/-- A round passes or breaks. -/
theorem passes_or_breaks (i : Nat) (s : σ) :
    (∃ values t, law.Passes g i s values t) ∨
      ∃ verdict t es, law.Breaks g i s verdict t es := by
  rcases returns_or_fails (g.get i) law.arity s with
    ⟨values, u, hlen, hret⟩ | ⟨values, u, e, t, hlen, hret, he⟩
  · rcases hpred : law.predicate values u with ⟨r, t⟩
    cases hf : law.finding values r with
    | none =>
      rw [finding_eq_none_iff] at hf
      exact .inl ⟨values, t, hlen, u, hret, hf ▸ hpred⟩
    | some verdict => exact .inr ⟨_, _, _, .broken hlen hret hpred hf⟩
  · exact .inr ⟨_, _, _, .cut hlen hret he⟩

/-! ### Rounds, one after the other -/

/-- The rounds from `i` on pass, one after the other, on a list of tuples. -/
inductive PassEach (law : Law σ α) (g : Generator σ α) : Nat → σ → List (List α) → σ → Prop
  | done (i : Nat) (s : σ) : PassEach law g i s [] s
  | next {i : Nat} {s s' t : σ} {values : List α} {tuples : List (List α)} :
      law.Passes g i s values s' → PassEach law g (i + 1) s' tuples t →
        PassEach law g i s (values :: tuples) t

/-- The calls of rounds with all their values, from round `i` on. -/
def callsEach (law : Law σ α) (g : Generator σ α) : Nat → List (List α) → List (Event α)
  | _, [] => []
  | i, values :: tuples => law.calls g i values ++ law.callsEach g (i + 1) tuples

variable {u : σ} {tuples : List (List α)}

/-- Rounds that pass hand over to the rounds behind them. -/
theorem rounds_of_passEach (hp : law.PassEach g i s tuples t) (n : Nat) :
    law.rounds g (tuples.length + n) i s =
      ((law.rounds g n (i + tuples.length)).value t, (law.rounds g n (i + tuples.length)).final t,
        law.callsEach g i tuples ++ (law.rounds g n (i + tuples.length)).events t) := by
  induction hp with
  | done i s =>
    rw [List.length_nil, Nat.zero_add]
    rfl
  | @next i s s' t values tuples hpass _ ih =>
    have hshift : i + (tuples.length + 1) = i + 1 + tuples.length := by omega
    rw [List.length_cons, Nat.succ_add, rounds, bind_apply, round_of_passes hpass]
    dsimp only
    rw [ih, hshift, callsEach, List.append_assoc]

variable (law g) in
/-- Of some rounds, all pass, or there is a first one that breaks. -/
theorem passEach_or_breaks (n i : Nat) (s : σ) :
    (∃ tuples t, tuples.length = n ∧ law.PassEach g i s tuples t) ∨
      ∃ tuples u verdict t es, tuples.length < n ∧ law.PassEach g i s tuples u ∧
        law.Breaks g (i + tuples.length) u verdict t es := by
  induction n generalizing i s with
  | zero => exact .inl ⟨[], s, rfl, .done i s⟩
  | succ n ih =>
    rcases law.passes_or_breaks g i s with ⟨values, s', hpass⟩ | ⟨verdict, t, es, hb⟩
    · rcases ih (i + 1) s' with
        ⟨tuples, t, hlen, hp⟩ | ⟨tuples, u, verdict, t, es, hlen, hp, hb⟩
      · exact .inl ⟨values :: tuples, t, congrArg (· + 1) hlen, .next hpass hp⟩
      · refine .inr ⟨values :: tuples, u, verdict, t, es, Nat.succ_lt_succ hlen, .next hpass hp, ?_⟩
        rwa [List.length_cons, Nat.add_comm tuples.length, ← Nat.add_assoc]
    · exact .inr ⟨[], s, verdict, t, es, Nat.succ_pos n, .done i s, hb⟩

/-! ### The whole check -/

variable (law g) in
/-- How a check ends: its verdict, the state that it leaves behind, and what it reports. -/
inductive Ends (c : Config) (s : σ) : Verdict → σ → List (Event α) → Prop
  | skipped : c.skip = true → Ends c s .success s [.logged (.lawSkipped law.name)]
  /-- All rounds pass. -/
  | held {tuples : List (List α)} {t : σ} :
      c.skip = false → tuples.length = c.sampleSize → law.PassEach g 0 s tuples t →
      Ends c s .success t
        (law.callsEach g 0 tuples ++ [.logged (.lawHeld law.name g.name c.sampleSize)])
  /-- Some rounds pass, and the next one breaks.  Its verdict is that of the check. -/
  | failed {tuples : List (List α)} {u t : σ} {verdict : Verdict} {es : List (Event α)} :
      c.skip = false → tuples.length < c.sampleSize → law.PassEach g 0 s tuples u →
      law.Breaks g tuples.length u verdict t es →
      Ends c s verdict t (law.callsEach g 0 tuples ++ es)

variable {c : Config}

theorem check_of_not_skip (hc : c.skip = false) : law.check g c =
    (law.rounds g c.sampleSize 0 >>= fun
      | some verdict => pure verdict
      | none => do
        Run.emit (.logged (.lawHeld law.name g.name c.sampleSize))
        return .success) :=
  if_neg (ne_true_of_eq_false hc)

theorem check_of_ends (he : law.Ends g c s verdict t es) : law.check g c s = (verdict, t, es) := by
  cases he with
  | skipped hc => exact law.check_of_skip g hc s
  | held hc hn hp =>
    have hrounds := rounds_of_passEach hp 0
    rw [Nat.add_zero, hn] at hrounds
    rw [check_of_not_skip hc, bind_apply, hrounds]
    simp [rounds]
  | failed hc hn hp hb =>
    obtain ⟨n, hsize⟩ := Nat.exists_eq_add_of_lt hn
    have hrounds := rounds_of_passEach hp (n + 1)
    rw [Nat.zero_add, ← Nat.add_assoc, ← hsize] at hrounds
    rw [check_of_not_skip hc, bind_apply, hrounds]
    simp [rounds, value, final, events, round_of_breaks hb]

/-- **Every check ends in one of three ways.** -/
theorem check_ends (law : Law σ α) (g : Generator σ α) (c : Config) (s : σ) :
    law.Ends g c s ((law.check g c).value s) ((law.check g c).final s)
      ((law.check g c).events s) := by
  -- an end that there is in any case is the end that the check comes to
  obtain ⟨verdict, t, es, he⟩ : ∃ verdict t es, law.Ends g c s verdict t es := by
    cases hc : c.skip with
    | true => exact ⟨_, _, _, .skipped hc⟩
    | false =>
      rcases law.passEach_or_breaks g c.sampleSize 0 s with
        ⟨tuples, t, hlen, hp⟩ | ⟨tuples, u, verdict, t, es, hlen, hp, hb⟩
      · exact ⟨_, _, _, .held hc hlen hp⟩
      · rw [Nat.zero_add] at hb
        exact ⟨_, _, _, .failed hc hlen hp hb⟩
  rw [value, final, events, check_of_ends he]
  exact he

/-- **A check that is not skipped succeeds exactly if all of its rounds pass.** -/
theorem check_eq_success_iff (hc : c.skip = false) : (law.check g c).value s = .success ↔
    ∃ tuples t, tuples.length = c.sampleSize ∧ law.PassEach g 0 s tuples t := by
  constructor
  · intro hs
    have he := law.check_ends g c s
    rw [hs] at he
    generalize (law.check g c).final s = t, (law.check g c).events s = es at he
    cases he with
    | skipped hc' => rw [hc] at hc'; cases hc'
    | held _ hlen hp => exact ⟨_, _, hlen, hp⟩
    | failed _ _ _ hb => cases hb.isSuccess_eq
  · rintro ⟨tuples, t, hlen, hp⟩
    rw [value, check_of_ends (.held hc hlen hp)]

end Law

/-! ### The edge rounds of a continuous generator -/

/-- A continuous generator makes the numbers of the round and builds one value from them. -/
theorem Continuous.get_eq (g : Continuous ω α) (i : Nat) (w : World ω) :
    g.get i w = match g.build (g.params i w).1 (g.params i w).2.host with
      | (.ok a, s) => (.ok a, (g.params i w).2.setHost s)
      | (.error mishap, s) =>
        (.error (.failed g.name mishap.brief), (g.params i w).2.setHost s) := by
  simp only [get, bind, StateT.bind, ExceptT.run, Callback.within]
  obtain ⟨xs, w'⟩ := g.params i w
  dsimp only
  rcases g.build xs w'.host with ⟨_ | _, _⟩ <;> rfl

/-- Where the numbers of a round are drawn from nowhere, its values are built from them, one after
the other, and nothing but the state of the host changes. -/
theorem Continuous.returns_build {g : Continuous ω α} {i : Nat} {xs : List Float}
    (hxs : ∀ w : World ω, g.params i w = (xs, w)) {w w' : World ω} {values : List α}
    (hr : Returns (g.get i) w values w') :
    Returns (g.build xs) w.host values w'.host ∧ w' = w.setHost w'.host := by
  induction hr with
  | done w => exact ⟨.done _, rfl⟩
  | @next w w₁ w' a values ha _ ih =>
    rw [get_eq, hxs] at ha
    dsimp only at ha
    rcases hb : g.build xs w.host with ⟨mishap | b, s⟩
    · rw [hb] at ha
      cases ha
    · rw [hb] at ha
      cases ha
      obtain ⟨hrest, hw⟩ := ih
      exact ⟨.next hb hrest, hw⟩

end Lawbook
