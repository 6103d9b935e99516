/-
Lawbook/Proofs/Formula.lean

Constraints as formulas: what a check of a constraint does, and what it comes to.

To check a constraint is to check its laws one after the other, each once and in order; the
verdicts are combined when all of them are there (`Constraint.check_eq_read`).  So no verdict keeps
a later law from being checked, and the state of the host goes from law to law.

A reading says what conjunctions and disjunctions mean.  Reports are one reading and truth values
are another, and forgetting what a report says leads from the one to the other
(`Constraint.map_read`).  Each law logs one notice, whose level tells whether it was skipped, held
or failed (`Law.exists_notice`).

`Constraint.check_evaluates` puts it together.
-/
import Lawbook.Proofs.Checks
import Mathlib.Data.List.Forall2

namespace Lawbook

open Event Run

variable {σ ε α β γ : Type}

/-- A series yields as many values as it has members. -/
theorem Run.length_value_mapM (f : α → Run σ ε β) (xs : List α) (s : σ) :
    ((xs.mapM f).value s).length = xs.length := by
  induction xs generalizing s with
  | nil => rfl
  | cons x xs ih => rw [value_mapM_cons, List.length_cons, ih, List.length_cons]

/-! ### The notice of a law -/

namespace Event

/-- The notices of two parts of a run are those of both, in order. -/
theorem notices_append (es es' : List (Event α)) :
    notices (es ++ es') = notices es ++ notices es' :=
  List.filterMap_append

/-- Nothing is logged. -/
def IsSilent (e : Event α) : Prop :=
  e.notice? = none

theorem notices_eq_nil {es : List (Event α)} (he : ∀ e ∈ es, e.IsSilent) : notices es = [] :=
  List.filterMap_eq_nil_iff.2 he

end Event

/-- While values are sampled, nothing is logged. -/
theorem Generator.silent_sample (g : Generator σ α) (i n : Nat) :
    Reports IsSilent (g.sample i n) := by
  induction n with
  | zero => exact reports_pure _
  | succ n ih =>
    have hdraw : Reports IsSilent (g.drawAt i) := .bind (reports_emit rfl) fun _ => reports_host _
    refine .bind hdraw fun r => ?_
    cases r with
    | error e => exact reports_pure _
    | ok a => exact ih.map _

namespace Law

theorem silent_judge (law : Law σ α) (values : List α) : Reports IsSilent (law.judge values) :=
  .bind (reports_emit rfl) fun _ => reports_host _

/-- Which verdict on a law goes with which notice. -/
inductive Tells (law : Law σ α) (g : Generator σ α) (c : Config) : Verdict → Notice → Prop
  | skipped : c.skip = true → Tells law g c .success (.lawSkipped law.name)
  | held : c.skip = false → Tells law g c .success (.lawHeld law.name g.name c.sampleSize)
  | violated {i v} : c.skip = false → i < c.sampleSize → v.isSuccess = false →
      Tells law g c v (.lawViolated law.name g.name i)
  | cut {error v} : c.skip = false → v.isSuccess = false →
      Tells law g c v (.generatorFailed g.name law.name error)

/-- The level of a notice for a verdict on a law. -/
def levelOf (skipped : Bool) (v : Verdict) : Level :=
  if skipped then .trace else if v.isSuccess then .debug else .warn

/-- The level of the notice about a law goes by whether it was skipped, and else by its verdict. -/
theorem Tells.level_eq {law : Law σ α} {g : Generator σ α} {c : Config} {v : Verdict} {n : Notice}
    (ht : law.Tells g c v n) : n.level = levelOf c.skip v := by
  cases ht with
  | skipped hc => simp [levelOf, hc, Notice.level]
  | held hc => simp [levelOf, hc, Notice.level, Verdict.isSuccess]
  | violated hc _ hv => simp [levelOf, hc, hv, Notice.level]
  | cut hc hv => simp [levelOf, hc, hv, Notice.level]

/-- Which outcome of rounds from `first` on, below `last`, goes with which notices. -/
inductive Finds (law : Law σ α) (g : Generator σ α) (first last : Nat) :
    Option Verdict → List Notice → Prop
  | nothing : Finds law g first last none []
  | violated {i v} : first ≤ i → i < last → v.isSuccess = false →
      Finds law g first last (some v) [.lawViolated law.name g.name i]
  | cut {error v} : v.isSuccess = false →
      Finds law g first last (some v) [.generatorFailed g.name law.name error]

/-- What is found among some rounds is found among more. -/
theorem Finds.mono {law : Law σ α} {g : Generator σ α} {first last first' last' : Nat}
    {found : Option Verdict} {ns : List Notice} (hf : law.Finds g first last found ns)
    (hfirst : first' ≤ first) (hlast : last ≤ last') : law.Finds g first' last' found ns := by
  cases hf with
  | nothing => exact .nothing
  | violated hi hl hv => exact .violated (Nat.le_trans hfirst hi) (Nat.lt_of_lt_of_le hl hlast) hv
  | cut hv => exact .cut hv

variable [Inspectable α]

/-- A counterexample is a failure, also without any values. -/
theorem isSuccess_counterexample (law : Law σ α) (values : List α) :
    (law.counterexample values).isSuccess = false := by
  unfold counterexample
  split <;> exact Verdict.isSuccess_fail _

/-- What a sample shows is a failure. -/
theorem isSuccess_of_finding {law : Law σ α} {values : List α} {r : Except Mishap Bool}
    {v : Verdict} (hf : law.finding values r = some v) : v.isSuccess = false := by
  unfold finding at hf
  split at hf
  · cases hf
  · cases hf
    exact isSuccess_counterexample law values
  · cases hf
    rw [Verdict.isSuccess_both, isSuccess_counterexample, Bool.and_false]

/-- A round logs nothing if it passes, and one warning if it fails. -/
theorem finds_round (law : Law σ α) (g : Generator σ α) (i : Nat) (s : σ) :
    law.Finds g i (i + 1) ((law.round g i).value s) (notices ((law.round g i).events s)) := by
  have hsample := notices_eq_nil (g.silent_sample i law.arity s)
  unfold round
  rw [value_bind, events_bind, notices_append, hsample, List.nil_append]
  cases (g.sample i law.arity).value s with
  | cut values error =>
    refine .cut ?_
    rw [Verdict.isSuccess_both, isSuccess_counterexample, Bool.and_false]
  | complete values =>
    dsimp only
    rw [value_bind, events_bind, notices_append, notices_eq_nil (law.silent_judge values _),
      List.nil_append]
    cases hf : law.finding values ((law.judge values).value _) with
    | none => exact .nothing
    | some v => exact .violated (Nat.le_refl i) (Nat.lt_succ_self i) (isSuccess_of_finding hf)

/-- Rounds log nothing if they pass, and one warning for the first that fails. -/
theorem finds_rounds (law : Law σ α) (g : Generator σ α) (n i : Nat) (s : σ) :
    law.Finds g i (i + n) ((law.rounds g n i).value s) (notices ((law.rounds g n i).events s)) := by
  induction n generalizing i s with
  | zero => exact .nothing
  | succ n ih =>
    have hround := law.finds_round g i s
    unfold rounds
    rw [value_bind, events_bind, notices_append]
    revert hround
    generalize notices ((law.round g i).events s) = ns
    cases (law.round g i).value s with
    | none =>
      -- a round that passes logs nothing, so that the notice is the one of a later round
      intro hround
      cases hround
      exact (ih (i + 1) _).mono (Nat.le_succ i) (by omega)
    | some v =>
      intro hround
      rw [events_pure, value_pure, notices, List.filterMap_nil, List.append_nil]
      exact hround.mono (Nat.le_refl i) (by omega)

/-- A law that is skipped does nothing to the host. -/
theorem check_of_skip (law : Law σ α) (g : Generator σ α) {c : Config} (hc : c.skip = true)
    (s : σ) : law.check g c s = (.success, s, [.logged (.lawSkipped law.name)]) := by
  simp [check, hc]

/-- **Each check of a law logs one notice**, which goes with its verdict. -/
theorem exists_notice (law : Law σ α) (g : Generator σ α) (c : Config) (s : σ) :
    ∃ n, notices ((law.check g c).events s) = [n] ∧ law.Tells g c ((law.check g c).value s) n := by
  cases hc : c.skip with
  | true =>
    rw [value, events, law.check_of_skip g hc]
    exact ⟨_, rfl, .skipped hc⟩
  | false =>
    have hrounds := law.finds_rounds g c.sampleSize 0 s
    unfold check
    simp only [hc, Bool.false_eq_true, if_false]
    rw [value_bind, events_bind, notices_append]
    -- what the rounds logged is read off together with what they found
    revert hrounds
    generalize notices ((law.rounds g c.sampleSize 0).events s) = ns
    cases (law.rounds g c.sampleSize 0).value s with
    | none =>
      intro hrounds
      cases hrounds
      exact ⟨_, rfl, .held hc⟩
    | some v =>
      intro hrounds
      rw [events_pure, value_pure, notices, List.filterMap_nil, List.append_nil]
      cases hrounds with
      | violated _ hl hv =>
        rw [Nat.zero_add] at hl
        exact ⟨_, rfl, .violated hc hl hv⟩
      | cut hv => exact ⟨_, rfl, .cut hc hv⟩

/-! ### Laws, one after the other -/

/-- Checks laws one after the other. -/
def checkEach (g : Generator σ α) (c : Config) : List (Law σ α) → Run σ (Event α) (List Verdict) :=
  List.mapM fun law => law.check g c

/-- Laws in two parts are checked as the first part and then the second one. -/
theorem checkEach_append (g : Generator σ α) (c : Config) (laws laws' : List (Law σ α)) :
    checkEach g c (laws ++ laws') =
      checkEach g c laws >>= fun vs => (vs ++ ·) <$> checkEach g c laws' := by
  rw [checkEach, List.mapM_append]
  simp only [Run.bind_pure_comp]

theorem length_value_checkEach (g : Generator σ α) (c : Config) (laws : List (Law σ α)) (s : σ) :
    ((checkEach g c laws).value s).length = laws.length :=
  length_value_mapM _ laws s

/-- Each law of several logs one notice, in order. -/
theorem forall₂_notices (g : Generator σ α) (c : Config) (laws : List (Law σ α)) (s : σ) :
    List.Forall₂ (fun (checked : Law σ α × Verdict) n => checked.1.Tells g c checked.2 n)
      (laws.zip ((checkEach g c laws).value s)) (notices ((checkEach g c laws).events s)) := by
  induction laws generalizing s with
  | nil => exact .nil
  | cons law laws ih =>
    obtain ⟨n, hn, ht⟩ := law.exists_notice g c s
    have hlaws := ih ((law.check g c).final s)
    rw [checkEach] at hlaws ⊢
    rw [value_mapM_cons, events_mapM_cons, notices_append, hn]
    exact .cons ht hlaws

/-- The levels of the notices of several laws tell their verdicts. -/
theorem levels_notices (g : Generator σ α) (c : Config) (laws : List (Law σ α)) (s : σ) :
    (notices ((checkEach g c laws).events s)).map Notice.level =
      ((checkEach g c laws).value s).map (levelOf c.skip) := by
  have hlength := length_value_checkEach g c laws s
  have hlevels : ∀ {checked : List (Law σ α × Verdict)} {ns : List Notice},
      List.Forall₂ (fun checked n => checked.1.Tells g c checked.2 n) checked ns →
        ns.map Notice.level = (checked.map Prod.snd).map (levelOf c.skip) := by
    intro checked ns hf
    induction hf with
    | nil => rfl
    | cons ht _ ih => rw [List.map_cons, List.map_cons, List.map_cons, ht.level_eq, ih]
  rw [hlevels (forall₂_notices g c laws s), List.map_snd_zip (Nat.le_of_eq hlength)]

/-- Laws that are skipped do nothing to the host. -/
theorem checkEach_of_skip (g : Generator σ α) {c : Config} (hc : c.skip = true)
    (laws : List (Law σ α)) (s : σ) :
    checkEach g c laws s = (List.replicate laws.length .success, s,
      laws.map fun law => .logged (.lawSkipped law.name)) := by
  induction laws with
  | nil => rfl
  | cons law laws ih =>
    rw [checkEach] at ih ⊢
    simp [List.mapM_cons, law.check_of_skip g hc, ih, List.replicate_succ]

end Law

/-! ### Readings of a constraint -/

namespace Constraint

/-- What conjunctions and disjunctions mean among values of type `β`, and the value of a law that
was not checked. -/
structure Reading (β : Type) where
  all : List β → β
  any : List β → β
  unknown : β

/-- Truth values under AND and OR. -/
def Reading.truth : Reading Bool := ⟨(·.all id), (·.any id), true⟩

/-- Verdicts, with the headings of conjunctions and disjunctions. -/
def Reading.report : Reading Verdict :=
  ⟨fun vs => (Verdict.all vs).under allHeading, fun vs => (Verdict.any vs).under anyHeading,
    .success⟩

mutual

/-- The value of a constraint, from values for its laws in their order. -/
def read (m : Reading β) : Constraint σ α → List β → β
  | obeys _, bs => bs.headD m.unknown
  | all parts, bs => m.all (readEach m parts bs)
  | any parts, bs => m.any (readEach m parts bs)

/-- The values of several constraints, each of which takes the values for its own laws. -/
def readEach (m : Reading β) : List (Constraint σ α) → List β → List β
  | [], _ => []
  | part :: parts, bs =>
    part.read m (bs.take part.lawCount) :: readEach m parts (bs.drop part.lawCount)

end

/-- Whether a constraint is true as a formula, for truth values of its laws in their order. -/
def isTrue (a : Constraint σ α) (bs : List Bool) : Bool :=
  a.read .truth bs

/-- The second reading is what a function makes of the first one. -/
structure Reading.Maps (f : β → γ) (m : Reading β) (m' : Reading γ) : Prop where
  all_eq : ∀ bs, f (m.all bs) = m'.all (bs.map f)
  any_eq : ∀ bs, f (m.any bs) = m'.any (bs.map f)
  unknown_eq : f m.unknown = m'.unknown

/-- A report is a success exactly if the formula is true. -/
theorem Reading.maps_isSuccess : Reading.Maps Verdict.isSuccess .report .truth where
  all_eq := fun vs => by
    show ((Verdict.all vs).under allHeading).isSuccess = (vs.map Verdict.isSuccess).all id
    rw [Verdict.isSuccess_under, Verdict.isSuccess_all, List.all_map]
    rfl
  any_eq := fun vs => by
    show ((Verdict.any vs).under anyHeading).isSuccess = (vs.map Verdict.isSuccess).any id
    rw [Verdict.isSuccess_under, Verdict.isSuccess_any, List.any_map]
    rfl
  unknown_eq := rfl

variable {m : Reading β} {m' : Reading γ} {f : β → γ}

mutual

theorem map_read (hm : m.Maps f m') :
    ∀ (a : Constraint σ α) (bs : List β), f (a.read m bs) = a.read m' (bs.map f)
  | obeys _, [] => hm.unknown_eq
  | obeys _, _ :: _ => rfl
  | all parts, bs => by rw [read, read, hm.all_eq, map_readEach hm parts bs]
  | any parts, bs => by rw [read, read, hm.any_eq, map_readEach hm parts bs]

/-- To read parts and then map the results is to map what is read, part by part. -/
theorem map_readEach (hm : m.Maps f m') :
    ∀ (parts : List (Constraint σ α)) (bs : List β),
      (readEach m parts bs).map f = readEach m' parts (bs.map f)
  | [], _ => rfl
  | part :: parts, bs => by
    rw [readEach, readEach, List.map_cons, map_read hm part, map_readEach hm parts, List.map_take,
      List.map_drop]

end

/-! ### The laws of a constraint -/

mutual

/-- The laws of a constraint have the names that are listed for it, in order. -/
theorem names_leaves : ∀ a : Constraint σ α, a.leaves.map Law.name = a.lawNames
  | obeys _ => rfl
  | all parts => names_leavesOfEach parts
  | any parts => names_leavesOfEach parts

theorem names_leavesOfEach :
    ∀ parts : List (Constraint σ α), (leavesOfEach parts).map Law.name = lawNamesOfEach parts
  | [] => rfl
  | part :: parts => by
    rw [leavesOfEach, lawNamesOfEach, List.map_append, names_leaves part, names_leavesOfEach parts]

end

/-- A constraint has as many laws as are counted. -/
theorem length_leaves (a : Constraint σ α) : a.leaves.length = a.lawCount := by
  rw [lawCount, ← names_leaves, List.length_map]

/-! ### Checking a constraint -/

variable [Inspectable α]

mutual

/-- **A check of a constraint checks its laws in order and reads their verdicts afterwards.** -/
theorem check_eq_read (g : Generator σ α) (c : Config) :
    ∀ a : Constraint σ α, a.check g c = a.read .report <$> Law.checkEach g c a.leaves
  | obeys law => by
    funext s
    simp [check, leaves, Law.checkEach, read]
  | all parts => by
    rw [check, checkEach_eq_readEach g c parts, Run.bind_pure_comp, ← comp_map]
    rfl
  | any parts => by
    rw [check, checkEach_eq_readEach g c parts, Run.bind_pure_comp, ← comp_map]
    rfl

theorem checkEach_eq_readEach (g : Generator σ α) (c : Config) :
    ∀ parts : List (Constraint σ α),
      checkEach g c parts = readEach .report parts <$> Law.checkEach g c (leavesOfEach parts)
  | [] => rfl
  | part :: parts => by
    funext s
    have hlength := Law.length_value_checkEach g c part.leaves s
    rw [length_leaves] at hlength
    have hvalue : ∀ vs, readEach .report (part :: parts)
        ((Law.checkEach g c part.leaves s).1 ++ vs) =
          part.read .report (Law.checkEach g c part.leaves s).1 :: readEach .report parts vs := by
      intro vs
      rw [readEach]
      congr
      · exact List.take_left' hlength
      · exact List.drop_left' hlength
    rw [checkEach, check_eq_read g c part, checkEach_eq_readEach g c parts, leavesOfEach,
      Law.checkEach_append]
    simp [hvalue]

end

/-- What a check of a constraint does from the host state `s`, and what it comes to, with the
verdicts `vs` on its laws and the notices `ns` that are logged. -/
structure Evaluates (a : Constraint σ α) (g : Generator σ α) (c : Config) (s : σ)
    (vs : List Verdict) (ns : List Notice) : Prop where
  /-- The laws are those that are named, in the order of their names. -/
  names_eq : a.leaves.map Law.name = a.lawNames
  /-- The verdicts are those of the laws, each checked once, in order, and each in the state that
  the one before it left behind. -/
  value_eq : (Law.checkEach g c a.leaves).value s = vs
  length_eq : vs.length = a.lawCount
  /-- Nothing else is done to the host. -/
  final_eq : (a.check g c).final s = (Law.checkEach g c a.leaves).final s
  events_eq : (a.check g c).events s = (Law.checkEach g c a.leaves).events s
  /-- There is one notice for each law, in order, which goes with its verdict. -/
  notices_eq : notices ((a.check g c).events s) = ns
  told : List.Forall₂ (fun (checked : Law σ α × Verdict) n => checked.1.Tells g c checked.2 n)
    (a.leaves.zip vs) ns
  levels_eq : ns.map Notice.level = vs.map (Law.levelOf c.skip)
  /-- The constraint holds exactly if it is true as a formula. -/
  success_iff : (a.check g c).value s = .success ↔ a.isTrue (vs.map Verdict.isSuccess) = true
  /-- Where checking is switched off, the host is left alone, and all laws count as true. -/
  skipped : c.skip = true → (a.check g c).final s = s ∧
    (a.check g c).events s = a.lawNames.map (fun name => .logged (.lawSkipped name)) ∧
    ((a.check g c).value s = .success ↔ a.isTrue (List.replicate a.lawCount true) = true)

/-- A constraint holds exactly if it is true as a formula over the verdicts on its laws. -/
theorem check_eq_success_iff_isTrue (a : Constraint σ α) (g : Generator σ α) (c : Config) (s : σ) :
    (a.check g c).value s = .success ↔
      a.isTrue (((Law.checkEach g c a.leaves).value s).map Verdict.isSuccess) = true := by
  rw [check_eq_read, value_map, ← Verdict.isSuccess_iff, map_read Reading.maps_isSuccess, isTrue]

/-- A constraint that is skipped is the formula with all laws true. -/
theorem check_of_skip (a : Constraint σ α) (g : Generator σ α) {c : Config} (hc : c.skip = true)
    (s : σ) : (a.check g c).final s = s ∧
      (a.check g c).events s = a.lawNames.map (fun name => .logged (.lawSkipped name)) ∧
      ((a.check g c).value s = .success ↔
        a.isTrue (List.replicate a.lawCount true) = true) := by
  have hskip := Law.checkEach_of_skip g hc a.leaves s
  refine ⟨?_, ?_, ?_⟩
  · rw [check_eq_read, final_map, final, hskip]
  · rw [check_eq_read, events_map, events, hskip, ← names_leaves, List.map_map]
    rfl
  · rw [check_eq_success_iff_isTrue, value, hskip, List.map_replicate, length_leaves]
    rfl

/-- A choice among nothing fails, also where everything is skipped. -/
example : (any [] : Constraint σ α).isTrue [] = false := rfl

/-- **A check of a constraint checks all its laws, in order, whatever they say**, logs one notice
for each of them, and succeeds exactly if the constraint is true as a formula. -/
theorem check_evaluates (a : Constraint σ α) (g : Generator σ α) (c : Config) (s : σ) :
    a.Evaluates g c s ((Law.checkEach g c a.leaves).value s)
      (notices ((a.check g c).events s)) := by
  have hevents : (a.check g c).events s = (Law.checkEach g c a.leaves).events s := by
    rw [check_eq_read, events_map]
  have hlength := Law.length_value_checkEach g c a.leaves s
  exact {
    names_eq := names_leaves a
    value_eq := rfl
    length_eq := hlength.trans (length_leaves a)
    final_eq := by rw [check_eq_read, final_map]
    events_eq := hevents
    notices_eq := rfl
    told := hevents ▸ Law.forall₂_notices g c a.leaves s
    levels_eq := hevents ▸ Law.levels_notices g c a.leaves s
    success_iff := check_eq_success_iff_isTrue a g c s
    skipped := fun hc => check_of_skip a g hc s }

end Constraint

end Lawbook
