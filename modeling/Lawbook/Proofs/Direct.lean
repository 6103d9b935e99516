/-
Lawbook/Proofs/Direct.lean

Direct validation: to check the declared classes of a subject without records comes to the same as
to request their validation.

Direct validation goes through an agenda, which holds the declared classes and all their ancestors,
each once (`Hierarchy.mem_agenda_iff`).  A request walks up from one class, with a ledger and marks.
Where a subject always builds the same values for a round and laws say the same about the same
values, neither order nor records matter: both ways succeed exactly if every declared class is
registered and holds (`validateAll_eq_success_iff_holds`, `Audited.validate_fresh_iff_holds`).

`Desk.validateAll_agrees` puts the two together.
-/
import Lawbook.Proofs.Uncached

namespace Lawbook

open Event Run

variable {κ κ' σ ε ω α β : Type}

/-! ### Subjects that always build the same values -/

/-- A source that always gives the same number. -/
def Source.AlwaysDraws (ω : Type) (source : Source) (x : Float) : Prop :=
  ∀ w : World ω, (source.draw w).1 = x

/-- A subject builds the same value from the same numbers in all states of the host. -/
def Subject.Steady (sub : Subject κ ω α) : Prop :=
  ∀ xs s t, (sub.build xs s).1 = (sub.build xs t).1

theorem Source.AlwaysDraws.draws_eq {source : Source} {x : Float} (hx : source.AlwaysDraws ω x)
    (n : Nat) (w : World ω) : (source.draws n w).1 = List.replicate n x := by
  induction n generalizing w with
  | zero => rfl
  | succ n ih =>
    show (source.draw w).1 :: (source.draws n (source.draw w).2).1 = x :: List.replicate n x
    rw [hx, ih]

namespace Subject

variable {sub : Subject κ ω α} {c : Config} {x : Float}

/-- The numbers for a round are the same in all worlds. -/
theorem params_eq (hx : c.random.AlwaysDraws ω x) (k k' : GeneratorId) (i : Nat) (w w' : World ω) :
    ((sub.generator k c).params i w).1 = ((sub.generator k' c).params i w').1 := by
  match i with
  | 0 => rfl
  | 1 => rfl
  | i + 2 =>
    show (c.random.draws sub.arity w).1 = (c.random.draws sub.arity w').1
    rw [hx.draws_eq, hx.draws_eq]

/-- The value of a round depends on the round only, whatever the identity of the generator. -/
theorem get_eq (hsub : sub.Steady) (hx : c.random.AlwaysDraws ω x) (k k' : GeneratorId) (i : Nat)
    (w w' : World ω) :
    ((sub.generator k c).get i w).1 = ((sub.generator k' c).get i w').1 := by
  rw [Continuous.value_get, Continuous.value_get, params_eq hx k k' i w w']
  simp only [generator, hsub _ _ ((sub.generator k' c).params i w').2.host]

/-- All generators of the subject yield the same values. -/
theorem exists_yields (hsub : sub.Steady) (hx : c.random.AlwaysDraws ω x) (w : World ω) :
    ∃ value, ∀ k, (sub.generator k c).toGenerator.Yields value :=
  ⟨fun i => ((sub.generator ⟨0⟩ c).get i w).1, fun k i w' => get_eq hsub hx k ⟨0⟩ i w' w⟩

end Subject

/-! ### Direct validation -/

theorem Run.Alike.value_mapM {f : α → Run σ ε β} {xs : List α}
    (hf : ∀ x ∈ xs, Alike (f x) (f x)) (s t : σ) :
    (xs.mapM f).value s = xs.map fun x => (f x).value t := by
  induction xs generalizing s with
  | nil => rfl
  | cons x xs ih =>
    obtain ⟨hx, hxs⟩ := List.forall_mem_cons.1 hf
    rw [value_mapM_cons, ih hxs, hx s t, List.map_cons]

namespace Hierarchy

variable {h : Hierarchy σ α} {g : Generator σ α} {c : Config} {m : Membership} {d id : ClassId}
variable {cls : Class σ α}

theorem mem_agenda_iff : d ∈ h.agenda m ↔ ∃ id ∈ m.classes, h.Descends id d := by
  rw [agenda, mem_distinct_iff, List.mem_flatMap]
  exact exists_congr fun id => and_congr_right fun _ => mem_lineage_iff

variable [Inspectable α]

theorem checkFor_of_class? (hc : h.class? d = some cls) :
    h.checkFor g c d = cls.checkLaws d g c >>= fun v =>
      pure (v.under (subjectHeading g.name cls.name)) := by
  simp [checkFor, find, hc]

theorem checkFor_of_none (hc : h.class? d = none) :
    h.checkFor g c d = pure (Verdict.fail (ClassError.unknownClass d).message) := by
  simp [checkFor, find, hc]

/-- Where laws and values are steady, checking the laws of a class comes to the same in all states
of the host. -/
theorem alike_checkFor {value : Nat → Except GeneratorError α} (hg : g.Yields value)
    (hs : ∀ cls, h.class? d = some cls → cls.laws.Steady) :
    Alike (h.checkFor g c d) (h.checkFor g c d) := by
  cases hc : h.class? d with
  | none =>
    rw [checkFor_of_none hc]
    exact alike_pure _
  | some cls =>
    rw [checkFor_of_class? hc]
    refine .bind ?_ fun _ => alike_pure _
    exact (alike_emit _ _).bind fun _ =>
      (Constraint.alike_check hg hg c cls.laws (hs cls hc)).bind fun _ =>
        (alike_emit _ _).bind fun _ => alike_pure _

/-- Whether steady laws hold depends on the values only. -/
theorem Steady.holds_iff_holds {g' : Generator σ α} {value : Nat → Except GeneratorError α}
    (hs : h.Steady id) (hg : g.Yields value) (hg' : g'.Yields value) (c : Config) (s t : σ) :
    h.Holds g c s id ↔ h.Holds g' c t id := by
  refine forall₄_congr fun d cls hd hc => ?_
  rw [Constraint.value_check_eq (hs d cls hd hc) hg hg' c s t]

theorem checkFor_eq_success_iff {s : σ} : (h.checkFor g c d).value s = .success ↔
    ∃ cls, h.class? d = some cls ∧ (cls.laws.check g c).value s = .success := by
  cases hc : h.class? d with
  | none =>
    rw [checkFor_of_none hc, value_pure, ← Verdict.isSuccess_iff, Verdict.isSuccess_fail]
    simp
  | some cls =>
    rw [checkFor_of_class? hc, value_bind, value_pure, Verdict.under_eq_success_iff,
      Class.value_checkLaws]
    simp

end Hierarchy

variable [Inspectable α]

section

variable (h : Hierarchy (World ω) α) (sub : Subject κ ω α) (k : GeneratorId) {m : Membership}

/-- Where nothing is declared, direct validation fails at once. -/
theorem validateAll_of_nil (hnil : m.classes = []) (c : Config) : validateAll h sub k m c =
    pure (Verdict.fail (InstanceError.noDeclaredClasses sub.name).message) :=
  if_pos (List.isEmpty_iff.2 hnil)

/-- Otherwise it goes through the agenda with the generator of the subject. -/
theorem validateAll_of_ne_nil (hne : m.classes ≠ []) (c : Config) : validateAll h sub k m c =
    (h.agenda m).mapM (h.checkFor (sub.generator k c).toGenerator c) >>= fun vs =>
      pure (Verdict.all vs) :=
  if_neg fun he => hne (List.isEmpty_iff.1 he)

end

/-- **Direct validation succeeds exactly if every declared class is registered and holds.** -/
theorem validateAll_eq_success_iff_holds {h : Hierarchy (World ω) α} {sub : Subject κ ω α}
    {m : Membership} {c : Config} {x : Float} (hne : m.classes ≠ [])
    (hx : c.random.AlwaysDraws ω x) (hsub : sub.Steady) (hs : ∀ id ∈ m.classes, h.Steady id)
    (k : GeneratorId) (w w' : World ω) :
    (validateAll h sub k m c).value w = .success ↔
      ∀ id ∈ m.classes, id.index < h.size ∧ h.Holds (sub.generator k c).toGenerator c w' id := by
  obtain ⟨value, hvalue⟩ := sub.exists_yields hsub hx w
  have hsteady : ∀ d ∈ h.agenda m, Alike (h.checkFor (sub.generator k c).toGenerator c d)
      (h.checkFor (sub.generator k c).toGenerator c d) := by
    intro d hd
    obtain ⟨id, hid, hdesc⟩ := Hierarchy.mem_agenda_iff.1 hd
    exact Hierarchy.alike_checkFor (hvalue k) fun cls => hs id hid d cls hdesc
  rw [validateAll_of_ne_nil h sub k hne, value_bind, value_pure, Verdict.all_eq_success_iff,
    Alike.value_mapM hsteady w w', List.forall_mem_map]
  constructor
  · intro hall id hid
    have hmem : ∀ {d}, h.Descends id d → d ∈ h.agenda m :=
      fun hd => Hierarchy.mem_agenda_iff.2 ⟨id, hid, hd⟩
    obtain ⟨cls, hc, -⟩ := Hierarchy.checkFor_eq_success_iff.1 (hall id (hmem .refl))
    refine ⟨Hierarchy.lt_size_of_class? hc, fun d cls' hd hc' => ?_⟩
    obtain ⟨cls'', hc'', hsucc⟩ := Hierarchy.checkFor_eq_success_iff.1 (hall d (hmem hd))
    rw [hc'] at hc''
    cases hc''
    exact hsucc
  · intro hall d hd
    obtain ⟨id, hid, hdesc⟩ := Hierarchy.mem_agenda_iff.1 hd
    obtain ⟨hlt, hholds⟩ := hall id hid
    obtain ⟨cls, hc⟩ := Hierarchy.exists_class?_of_lt (hdesc.lt_size hlt)
    exact Hierarchy.checkFor_eq_success_iff.2 ⟨cls, hc, hholds d cls hdesc hc⟩

/-- A registry without records for a generator keeps its accounts without ever being asked for
it. -/
theorem Audited.unasked {Asks : Generator σ α → Config → Prop} {r : Registry σ α}
    {es : List (Event α)} (ha : Audited Asks r es) {k : GeneratorId}
    (hk : ∀ d, r.ledger.verdict? k d = none) : Audited (fun g _ => g.id ≠ k) r es := by
  refine ⟨?_, ha.openings_nil, ha.closings_nil⟩
  intro k' d v hv
  obtain ⟨g, c, s, cls, rfl, -, hacc⟩ := ha.accounted k' d v hv
  refine ⟨g, c, s, cls, rfl, ?_, hacc⟩
  rintro rfl
  rw [hk d] at hv
  cases hv

/-- **A request for a generator without records succeeds exactly if the class is registered and
holds.** -/
theorem Audited.validate_fresh_iff_holds {Asks : Generator σ α → Config → Prop} {r : Registry σ α}
    {es : List (Event α)} (ha : Audited Asks r es) {g : Generator σ α}
    {value : Nat → Except GeneratorError α} (hg : g.Yields value)
    (hk : ∀ d, r.ledger.verdict? g.id d = none) {id : ClassId} (hs : r.hierarchy.Steady id)
    (c : Config) (s t : σ) :
    ((r.validate id g c).value s).1 = .success ↔
      id.index < r.hierarchy.size ∧ r.hierarchy.Holds g c t id := by
  by_cases hid : id.index < r.hierarchy.size
  · obtain ⟨plan, hp⟩ := Registry.validate_settles r id g c s hid
    have ha' := (ha.unasked hk).validate id g c s
    have hasks : ∀ g' c', (g'.id ≠ g.id ∨ (g' = g ∧ c' = c)) → g'.id = g.id →
        g'.Yields value ∧ c' = c := by
      rintro g' c' (hne | ⟨rfl, rfl⟩) hk'
      · exact absurd hk' hne
      · exact ⟨hg, rfl⟩
    have hiff := ha'.eq_success_iff_holds hg hasks t (id.index + 1) id _ (Nat.lt_succ_self _)
      (hp.hierarchy_eq ▸ hs) hp.recorded
    rw [hp.hierarchy_eq] at hiff
    rw [hiff, and_iff_right hid]
  · rw [Run.value, Registry.validate_unknown r id g c s hid, ← Verdict.isSuccess_iff,
      Verdict.isSuccess_fail]
    simp [hid]

/-- **Direct validation and requests agree.**  After any run of operations, the direct validation of
a subject with declared classes succeeds exactly if for every declared class a request with a
generator of the subject does for which nothing is recorded.  Declared classes may come more than
once and need not be registered.  The source of the configuration always gives the same number, and
the subject and the laws of the declared classes and of their ancestors do not depend on the
host. -/
theorem Desk.validateAll_agrees [DecidableEq κ] (qs : List (Request κ (World ω) α)) (s₀ : World ω)
    (sub : Subject κ' ω α) (m : Membership) (c : Config) (x : Float) (k₀ : GeneratorId)
    (k : ClassId → GeneratorId) (w : World ω) (t : ClassId → World ω) (hne : m.classes ≠ [])
    (hx : c.random.AlwaysDraws ω x) (hsub : sub.Steady)
    (hs : ∀ id ∈ m.classes, (Desk.after qs s₀).registry.hierarchy.Steady id)
    (hk : ∀ id ∈ m.classes, ∀ d, (Desk.after qs s₀).registry.ledger.verdict? (k id) d = none) :
    (validateAll (Desk.after qs s₀).registry.hierarchy sub k₀ m c).value w = .success ↔
      ∀ id ∈ m.classes, (((Desk.after qs s₀).registry.validate id
        (sub.generator (k id) c).toGenerator c).value (t id)).1 = .success := by
  obtain ⟨value, hvalue⟩ := sub.exists_yields hsub hx w
  rw [validateAll_eq_success_iff_holds hne hx hsub hs k₀ w w]
  refine forall₂_congr fun id hid => ?_
  rw [(Desk.after_audited qs s₀).validate_fresh_iff_holds (hvalue (k id)) (hk id hid) (hs id hid) c
    (t id) w]
  exact and_congr_right fun _ => (hs id hid).holds_iff_holds (hvalue k₀) (hvalue (k id)) c w w

/-! ### Four classes of numbers, and a subject -/

namespace Lengths

/-- The law that a number is even. -/
def even : Law (World Unit) Nat := ⟨"even", 1, fun values => pure (values.all fun n => n % 2 == 0)⟩

/-- The subject whose values are the lengths of what they are built from. -/
def lengths : Subject Unit Unit Nat := ⟨(), "Length", 2, fun xs => pure xs.length⟩

/-- A generator besides those of the subject. -/
def doubles : Generator (World Unit) Nat := ⟨⟨0⟩, "Doubles", fun i => pure (.ok (2 * i))⟩

def config : Config := ⟨3, false, .constant 0.5⟩

def world : World Unit := .start (fun _ => 0.0) ()

/-- The classes join a registry, and the second one is validated against another generator. -/
def requests : List (Request Unit (World Unit) Nat) :=
  [.register ⟨some "Even", [], [.obeys even]⟩,
   .register ⟨some "Left", [⟨0⟩], []⟩,
   .register ⟨some "Right", [⟨0⟩], []⟩,
   .register ⟨some "Both", [⟨1⟩, ⟨2⟩], [.obeys even]⟩,
   .validate ⟨1⟩ doubles config]

/-- One of the declared classes comes twice, and another is an ancestor of it. -/
def declared : Membership := ⟨[⟨3⟩, ⟨1⟩, ⟨3⟩], false⟩

theorem classes_after : (Desk.after requests world).registry.hierarchy.classes =
    #[⟨"Even", [], .obeys even⟩, ⟨"Left", [⟨0⟩], .trivial⟩, ⟨"Right", [⟨0⟩], .trivial⟩,
      ⟨"Both", [⟨1⟩, ⟨2⟩], .obeys even⟩] := by
  rfl

theorem after_steady (id : ClassId) :
    (Desk.after requests world).registry.hierarchy.Steady id := by
  refine Hierarchy.steady_of_forall_mem ?_ id
  have heven : even.Steady := fun _ _ _ => rfl
  rw [classes_after]
  simp [heven]

theorem unrecorded (d : ClassId) :
    (Desk.after requests world).registry.ledger.verdict? ⟨1⟩ d = none := by
  have hpage : (Desk.after requests world).registry.ledger.pageOf ⟨1⟩ = [] := by decide +kernel
  rw [Ledger.verdict?, hpage]
  rfl

/-- The subject is validated directly, and so each request for its classes succeeds. -/
theorem lengths_agree :
    (validateAll (Desk.after requests world).registry.hierarchy lengths ⟨1⟩ declared config).value
        world = .success ∧
      ∀ id ∈ declared.classes, (((Desk.after requests world).registry.validate id
        (lengths.generator ⟨1⟩ config).toGenerator config).value world).1 = .success := by
  have hiff := Desk.validateAll_agrees requests world lengths declared config 0.5 ⟨1⟩
    (fun _ => ⟨1⟩) world (fun _ => world) (by decide) (fun _ => rfl) (fun _ _ _ => rfl)
    (fun id _ => after_steady id) (fun _ _ => unrecorded)
  have hdirect : (validateAll (Desk.after requests world).registry.hierarchy lengths ⟨1⟩ declared
      config).value world = .success := by
    decide +kernel
  exact ⟨hdirect, hiff.1 hdirect⟩

end Lengths

end Lawbook
