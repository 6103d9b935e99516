/-
Lawbook/Proofs/Checks.lean

Checks: what they report, and what their verdicts depend on.

A check asks generators for values, calls predicates and logs; it never opens or closes a class
(`reports_check`).  So in the events of a run the laws of a class itself are found between one
opening and one closing, and the closing has their verdict (`openings_checkLaws`,
`closings_checkLaws`).

A generator that yields the same value for a round in all host states, and laws whose predicates
say the same about the same values in all host states, make checks whose verdicts do not depend on
the host (`value_check_eq`): not on its state, and not on which of several such generators with the
same values is asked.

Both results come from one closure argument each: a property of runs that `pure` has and that a
sequence of runs inherits from its parts.
-/
import Lawbook.Class

namespace Lawbook

variable {σ ε α β : Type}

/-! ### Properties of runs that sequences inherit -/

namespace Run

/-- All events of a run have a property. -/
def Reports (P : ε → Prop) (m : Run σ ε α) : Prop :=
  ∀ s, ∀ e ∈ m.events s, P e

/-- Two runs yield the same, whatever states they start from. -/
def Alike (m m' : Run σ ε α) : Prop :=
  ∀ s t, m.value s = m'.value t

variable {P : ε → Prop} {m m' : Run σ ε α} {f f' : α → Run σ ε β}

theorem reports_pure (a : α) : Reports P (pure a : Run σ ε α) := by
  intro s e he
  simp at he

theorem reports_emit {e : ε} (he : P e) : Reports P (emit e : Run σ ε Unit) := by
  intro s e' he'
  obtain rfl := List.mem_singleton.1 he'
  exact he

/-- The host itself reports nothing, so whatever is asked of events holds. -/
theorem reports_host (call : StateM σ α) : Reports P (host call : Run σ ε α) := by
  intro s e he
  exact absurd he List.not_mem_nil

/-- The closure argument for events: those of a sequence are those of its two parts.  The second
part is taken with every result, since its events depend on it. -/
theorem Reports.bind (hm : Reports P m) (hf : ∀ a, Reports P (f a)) : Reports P (m >>= f) := by
  intro s e he
  rw [events_bind] at he
  rcases List.mem_append.1 he with he | he
  · exact hm s e he
  · exact hf _ _ e he

theorem Reports.map (hm : Reports P m) (f : α → β) : Reports P (f <$> m) :=
  hm

theorem alike_pure (a : α) : Alike (pure a : Run σ ε α) (pure a) :=
  fun _ _ => rfl

/-- Which event is reported does not show in the result. -/
theorem alike_emit (e e' : ε) : Alike (emit e : Run σ ε Unit) (emit e') :=
  fun _ _ => rfl

/-- The closure argument for results.  Runs that are alike yield the same from any two states, so
the second parts get the same result, and the states in between do not matter. -/
theorem Alike.bind (hm : Alike m m') (hf : ∀ a, Alike (f a) (f' a)) :
    Alike (m >>= f) (m' >>= f') := by
  intro s t
  rw [value_bind, value_bind, hm s t]
  exact hf _ _ _

theorem Alike.map (hm : Alike m m') (f : α → β) : Alike (f <$> m) (f <$> m') :=
  fun s t => congrArg f (hm s t)

end Run

/-! ### Events of a check -/

namespace Event

/-- A value was asked for, a predicate was called, or something was logged. -/
def IsSampling : Event α → Prop
  | drew _ _ => True
  | judged _ _ => True
  | logged _ => True
  | _ => False

/-- Whether an event tells what is done to the host and to classes, and not how a request walks. -/
def isWork : Event α → Bool
  | drew _ _ => true
  | judged _ _ => true
  | opened _ _ _ => true
  | closed _ _ _ => true
  | _ => false

/-- Whether a walk arrives at a class. -/
def isArrival : Event α → Bool
  | reached _ => true
  | _ => false

/-- The work among events: calls into the host, and the classes whose laws they are made for. -/
def work (es : List (Event α)) : List (Event α) :=
  es.filter isWork

/-- How often a walk arrives at a class. -/
def arrivals (es : List (Event α)) : Nat :=
  es.countP isArrival

/-- The skip switch at the opening of a class for a generator. -/
def opening? (k : GeneratorId) (d : ClassId) : Event α → Option Bool
  | opened id g skipped => if id = d ∧ g = k then some skipped else none
  | _ => none

/-- The verdict at the closing of a class for a generator. -/
def closing? (k : GeneratorId) (d : ClassId) : Event α → Option Verdict
  | closed id g verdict => if id = d ∧ g = k then some verdict else none
  | _ => none

/-- How the laws of a class itself were checked against a generator: the skip switch each time. -/
def openings (k : GeneratorId) (d : ClassId) (es : List (Event α)) : List Bool :=
  es.filterMap (opening? k d)

/-- What the laws of a class itself came to against a generator, each time. -/
def closings (k : GeneratorId) (d : ClassId) (es : List (Event α)) : List Verdict :=
  es.filterMap (closing? k d)

variable (k : GeneratorId) (d : ClassId) (es es' : List (Event α))

/-- The work of a run in two parts is the work of both. -/
@[simp] theorem work_append : work (es ++ es') = work es ++ work es' :=
  List.filter_append ..

@[simp] theorem arrivals_append : arrivals (es ++ es') = arrivals es + arrivals es' :=
  List.countP_append

/-- A class is opened in two parts of a run as often as in both. -/
@[simp] theorem openings_append :
    openings k d (es ++ es') = openings k d es ++ openings k d es' :=
  List.filterMap_append

@[simp] theorem closings_append :
    closings k d (es ++ es') = closings k d es ++ closings k d es' :=
  List.filterMap_append

/-- To arrive at a class is no work: nothing is done to the host there. -/
@[simp] theorem work_reached_cons (id : ClassId) : work (reached id :: es) = work es := rfl

@[simp] theorem arrivals_reached_cons (id : ClassId) :
    arrivals (reached id :: es) = arrivals es + 1 :=
  List.countP_cons_of_pos rfl

/-- Openings are work. -/
@[simp] theorem openings_work : openings k d (work es) = openings k d es := by
  rw [openings, work, List.filterMap_filter]
  congr 1
  funext e
  cases e <;> rfl

/-- Closings are work. -/
@[simp] theorem closings_work : closings k d (work es) = closings k d es := by
  rw [closings, work, List.filterMap_filter]
  congr 1
  funext e
  cases e <;> rfl

variable {es}

/-- While values are sampled, no class is opened, nor is one closed or arrived at: such events are no
samplings. -/
theorem openings_eq_nil_of_isSampling (he : ∀ e ∈ es, e.IsSampling) : openings k d es = [] := by
  refine List.filterMap_eq_nil_iff.2 fun e hm => ?_
  have := he e hm
  cases e <;> simp_all [IsSampling, opening?]

theorem closings_eq_nil_of_isSampling (he : ∀ e ∈ es, e.IsSampling) : closings k d es = [] := by
  refine List.filterMap_eq_nil_iff.2 fun e hm => ?_
  have := he e hm
  cases e <;> simp_all [IsSampling, closing?]

theorem arrivals_eq_zero_of_isSampling (he : ∀ e ∈ es, e.IsSampling) : arrivals es = 0 := by
  refine List.countP_eq_zero.2 fun e hm => ?_
  have := he e hm
  cases e <;> simp_all [IsSampling, isArrival]

variable {k d}

/-- A class was opened if the event is there, and with the switch that the event has. -/
theorem mem_openings_iff {skipped : Bool} :
    skipped ∈ openings k d es ↔ opened d k skipped ∈ es := by
  rw [openings, List.mem_filterMap]
  constructor
  · rintro ⟨e, he, ho⟩
    cases e <;> simp [opening?] at ho
    obtain ⟨⟨rfl, rfl⟩, rfl⟩ := ho
    exact he
  · exact fun he => ⟨_, he, by simp [opening?]⟩

/-- A class was closed if the event is there, and with the verdict that the event has. -/
theorem mem_closings_iff {v : Verdict} : v ∈ closings k d es ↔ closed d k v ∈ es := by
  rw [closings, List.mem_filterMap]
  constructor
  · rintro ⟨e, he, hc⟩
    cases e <;> simp [closing?] at hc
    obtain ⟨⟨rfl, rfl⟩, rfl⟩ := hc
    exact he
  · exact fun he => ⟨_, he, by simp [closing?]⟩

end Event

/-! ### Laws and generators that do not depend on the host -/

/-- The values that a generator yields in the rounds, in all host states. -/
def Generator.Yields (g : Generator σ α) (value : Nat → Except GeneratorError α) : Prop :=
  ∀ i s, (g.get i s).1 = value i

/-- The predicate of the law says the same about the same values in all host states. -/
def Law.Steady (law : Law σ α) : Prop :=
  ∀ values s t, (law.predicate values s).1 = (law.predicate values t).1

namespace Constraint

mutual

/-- The laws of a constraint, in the order in which they are checked. -/
def leaves : Constraint σ α → List (Law σ α)
  | obeys law => [law]
  | all parts => leavesOfEach parts
  | any parts => leavesOfEach parts

/-- The laws of several constraints, in order. -/
def leavesOfEach : List (Constraint σ α) → List (Law σ α)
  | [] => []
  | part :: parts => part.leaves ++ leavesOfEach parts

end

/-- All laws of a constraint are steady. -/
def Steady (a : Constraint σ α) : Prop :=
  ∀ law ∈ a.leaves, law.Steady

@[simp] theorem steady_obeys {law : Law σ α} : (obeys law).Steady ↔ law.Steady := by
  simp [Steady, leaves]

@[simp] theorem steady_trivial : (trivial : Constraint σ α).Steady := by
  simp [Steady, trivial, leaves, leavesOfEach]

end Constraint

/-! ### Sampling -/

open Event Run

variable {g g' : Generator σ α} {value : Nat → Except GeneratorError α}

theorem Generator.reports_drawAt (g : Generator σ α) (i : Nat) :
    Reports IsSampling (g.drawAt i) :=
  .bind (reports_emit trivial) fun _ => reports_host _

/-- Two generators that yield the same values do so in every round, also if asked in different
states. -/
theorem Generator.alike_drawAt (hg : g.Yields value) (hg' : g'.Yields value) (i : Nat) :
    Alike (g.drawAt i) (g'.drawAt i) :=
  (alike_emit _ _).bind fun _ s t => (hg i s).trans (hg' i t).symm

/-- A sample consists of draws, and it ends with the first that fails. -/
theorem Generator.reports_sample (g : Generator σ α) (i n : Nat) :
    Reports IsSampling (g.sample i n) := by
  induction n with
  | zero => exact reports_pure _
  | succ n ih =>
    refine .bind (g.reports_drawAt i) fun r => ?_
    cases r with
    | error e => exact reports_pure _
    | ok a => exact ih.map _

/-- The values of a sample do not depend on the host: by induction on their number, where a draw
that fails ends both samples. -/
theorem Generator.alike_sample (hg : g.Yields value) (hg' : g'.Yields value) (i n : Nat) :
    Alike (g.sample i n) (g'.sample i n) := by
  induction n with
  | zero => exact alike_pure _
  | succ n ih =>
    -- both draws yield the same, so the samples are cut in the same place
    refine (alike_drawAt hg hg' i).bind fun r => ?_
    cases r with
    | error e => exact alike_pure _
    | ok a => exact ih.map _

/-! ### Laws -/

namespace Law

/-- To call a predicate is sampling, whatever the host does to answer. -/
theorem reports_judge (law : Law σ α) (values : List α) :
    Reports IsSampling (law.judge values) :=
  .bind (reports_emit trivial) fun _ => reports_host _

/-- A steady predicate answers the same about the same values, also if asked in different states. -/
theorem alike_judge {law : Law σ α} (hl : law.Steady) (values : List α) :
    Alike (law.judge values) (law.judge values) :=
  (alike_emit _ _).bind fun _ s t => hl values s t

variable [Inspectable α]

/-- A round samples and judges, and tells what it found. -/
theorem reports_round (law : Law σ α) (g : Generator σ α) (i : Nat) :
    Reports IsSampling (law.round g i) := by
  refine .bind (g.reports_sample i law.arity) fun sample => ?_
  cases sample with
  | cut values error => exact .bind (reports_emit trivial) fun _ => reports_pure _
  | complete values =>
    refine .bind (law.reports_judge values) fun r => ?_
    cases law.finding values r with
    | none => exact reports_pure _
    | some verdict => exact .bind (reports_emit trivial) fun _ => reports_pure _

/-- A round of a steady law finds the same in all states: the samples are alike, and so are the
answers about them. -/
theorem alike_round {law : Law σ α} (hl : law.Steady) (hg : g.Yields value)
    (hg' : g'.Yields value) (i : Nat) : Alike (law.round g i) (law.round g' i) := by
  refine (Generator.alike_sample hg hg' i law.arity).bind fun sample => ?_
  cases sample with
  | cut values error => exact (alike_emit _ _).bind fun _ => alike_pure _
  | complete values =>
    refine (alike_judge hl values).bind fun r => ?_
    cases law.finding values r with
    | none => exact alike_pure _
    | some verdict => exact (alike_emit _ _).bind fun _ => alike_pure _

/-- Rounds in a row are sampling.  The first that finds something is the last. -/
theorem reports_rounds (law : Law σ α) (g : Generator σ α) (n i : Nat) :
    Reports IsSampling (law.rounds g n i) := by
  induction n generalizing i with
  | zero => exact reports_pure _
  | succ n ih =>
    refine .bind (law.reports_round g i) fun found => ?_
    cases found with
    | none => exact ih (i + 1)
    | some verdict => exact reports_pure _

/-- The first round that finds something is the same in all states, by induction on the number of
rounds that are left. -/
theorem alike_rounds {law : Law σ α} (hl : law.Steady) (hg : g.Yields value)
    (hg' : g'.Yields value) (n i : Nat) : Alike (law.rounds g n i) (law.rounds g' n i) := by
  induction n generalizing i with
  | zero => exact alike_pure _
  | succ n ih =>
    refine (alike_round hl hg hg' i).bind fun found => ?_
    cases found with
    | none => exact ih (i + 1)
    | some verdict => exact alike_pure _

/-- The check of a law reports samplings only, also if it is skipped: then it only logs. -/
theorem reports_check (law : Law σ α) (g : Generator σ α) (c : Config) :
    Reports IsSampling (law.check g c) := by
  unfold check
  split
  · exact .bind (reports_emit trivial) fun _ => reports_pure _
  · refine .bind (law.reports_rounds g c.sampleSize 0) fun found => ?_
    cases found with
    | none => exact .bind (reports_emit trivial) fun _ => reports_pure _
    | some verdict => exact reports_pure _

/-- The check of a steady law comes to the same in all states. -/
theorem alike_check {law : Law σ α} (hl : law.Steady) (hg : g.Yields value)
    (hg' : g'.Yields value) (c : Config) : Alike (law.check g c) (law.check g' c) := by
  unfold check
  -- the switch is that of the configuration, so both checks are skipped or neither is
  split
  · exact (alike_emit _ _).bind fun _ => alike_pure _
  · refine (alike_rounds hl hg hg' c.sampleSize 0).bind fun found => ?_
    cases found with
    | none => exact (alike_emit _ _).bind fun _ => alike_pure _
    | some verdict => exact alike_pure _

end Law

/-! ### Constraints -/

namespace Constraint

variable [Inspectable α]

mutual

/-- A check reports samplings only. -/
theorem reports_check (g : Generator σ α) (c : Config) :
    ∀ a : Constraint σ α, Reports IsSampling (a.check g c)
  | obeys law => law.reports_check g c
  | all parts => .bind (reports_checkEach g c parts) fun _ => reports_pure _
  | any parts => .bind (reports_checkEach g c parts) fun _ => reports_pure _

/-- The check of several constraints reports samplings only, too. -/
theorem reports_checkEach (g : Generator σ α) (c : Config) :
    ∀ parts : List (Constraint σ α), Reports IsSampling (checkEach g c parts)
  | [] => reports_pure _
  | part :: parts =>
    .bind (reports_check g c part) fun _ =>
      .bind (reports_checkEach g c parts) fun _ => reports_pure _

end

mutual

theorem alike_check (hg : g.Yields value) (hg' : g'.Yields value) (c : Config) :
    ∀ a : Constraint σ α, a.Steady → Alike (a.check g c) (a.check g' c)
  | obeys law, ha => Law.alike_check (ha law List.mem_cons_self) hg hg' c
  | all parts, ha => (alike_checkEach hg hg' c parts ha).bind fun _ => alike_pure _
  | any parts, ha => (alike_checkEach hg hg' c parts ha).bind fun _ => alike_pure _

theorem alike_checkEach (hg : g.Yields value) (hg' : g'.Yields value) (c : Config) :
    ∀ parts : List (Constraint σ α), (∀ law ∈ leavesOfEach parts, law.Steady) →
      Alike (checkEach g c parts) (checkEach g' c parts)
  | [], _ => alike_pure _
  | part :: parts, ha =>
    (alike_check hg hg' c part fun law hl => ha law (List.mem_append_left _ hl)).bind fun _ =>
      (alike_checkEach hg hg' c parts fun law hl => ha law (List.mem_append_right _ hl)).bind
        fun _ => alike_pure _

end

/-- The verdict on a steady constraint is the same in all host states and for all generators with
the same values. -/
theorem value_check_eq {a : Constraint σ α} (ha : a.Steady) (hg : g.Yields value)
    (hg' : g'.Yields value) (c : Config) (s t : σ) :
    (a.check g c).value s = (a.check g' c).value t :=
  alike_check hg hg' c a ha s t

end Constraint

/-! ### The laws of a class itself -/

namespace Class

variable [Inspectable α] (cls : Class σ α) (id : ClassId) (g : Generator σ α) (c : Config) (s : σ)

/-- The laws of a class are checked between its opening and its closing, and the closing has what
they come to. -/
theorem events_checkLaws : (cls.checkLaws id g c).events s =
    opened id g.id c.skip :: ((cls.laws.check g c).events s ++
      [closed id g.id ((cls.checkLaws id g c).value s)]) := by
  simp [checkLaws]
  rfl

theorem value_checkLaws :
    (cls.checkLaws id g c).value s = (cls.laws.check g c).value s := rfl

/-- To check the laws of a class opens this class once, with the switch of the configuration, and no
other class: in between there are samplings only. -/
theorem openings_checkLaws (k : GeneratorId) (d : ClassId) :
    openings k d ((cls.checkLaws id g c).events s) =
      if id = d ∧ g.id = k then [c.skip] else [] := by
  rw [events_checkLaws, ← List.singleton_append, openings_append, openings_append,
    openings_eq_nil_of_isSampling k d (cls.laws.reports_check g c s)]
  -- what is left are the two events at the ends, and only the first is an opening
  by_cases h : id = d ∧ g.id = k <;> simp [openings, opening?, h]

/-- To check the laws of a class closes this class once, with what the laws come to, and no other
class. -/
theorem closings_checkLaws (k : GeneratorId) (d : ClassId) :
    closings k d ((cls.checkLaws id g c).events s) =
      if id = d ∧ g.id = k then [(cls.laws.check g c).value s] else [] := by
  rw [events_checkLaws, ← List.singleton_append, closings_append, closings_append,
    closings_eq_nil_of_isSampling k d (cls.laws.reports_check g c s), value_checkLaws]
  by_cases h : id = d ∧ g.id = k <;> simp [closings, closing?, h]

/-- To check the laws of a class arrives nowhere: only a walk does. -/
theorem arrivals_checkLaws : arrivals ((cls.checkLaws id g c).events s) = 0 := by
  rw [events_checkLaws, ← List.singleton_append, arrivals_append, arrivals_append,
    arrivals_eq_zero_of_isSampling (cls.laws.reports_check g c s)]
  rfl

end Class

end Lawbook
