/-
Lawbook/Proofs/Mishaps.lean

Mishaps: errors and crashes of the host's callbacks count as broken laws, and as nothing else.

A check with plain laws goes side by side with the check itself: it asks for the same values, calls
the same predicates on them, leaves the host in the same state, and comes to a verdict that differs
in its text at most (`Law.check_paired`, `Constraint.check_paired`).  So does a walk through a plain
hierarchy, which then records verdicts for the same classes (`Hierarchy.visit_paired`), and so does
every errand that a program runs at its desk (`Errand.run_paired`).

Main result: `Errand.mishaps_count_as_broken`.
-/
import Lawbook.Generator.Discrete
import Lawbook.Proofs.Errands
import Lawbook.Proofs.Paired
import Lawbook.Proofs.Plain
import Lawbook.Proofs.Rounds

namespace Lawbook

open Run

variable {κ σ ω α : Type}

/-! ### Checks -/

section Checks

variable (g : Generator σ α) (c : Config)

/-- A run that calls nothing but the generator goes side by side with itself. -/
theorem Generator.sample_paired (i n : Nat) :
    Paired Eq Event.Agrees Eq (g.sample i n) (g.sample i n) := by
  rintro s _ rfl
  exact ⟨rfl, rfl, List.forall₂_same.2 fun e _ => .same e⟩

/-- Both predicates hold, or neither does. -/
theorem Law.judge_paired (law : Law σ α) (values : List α) :
    Paired Eq Event.Agrees (fun r r' => r = .ok true ↔ r' = .ok true) (law.judge values)
      (law.plain.judge values) := by
  rintro s _ rfl
  exact ⟨((law.predicate values).plain_fst_eq_true_iff s).symm,
    ((law.predicate values).plain_snd s).symm, .cons (.same _) .nil⟩

variable [Inspectable α]

namespace Law

variable (law : Law σ α)

/-- What a sample shows is a failure in both cases, or nothing in both. -/
theorem finding_agrees (values : List α) {r r' : Except Mishap Bool}
    (hr : r = .ok true ↔ r' = .ok true) :
    Option.Rel Verdict.Agrees (law.finding values r) (law.plain.finding values r') := by
  have hnone : law.finding values r = none ↔ law.plain.finding values r' = none :=
    finding_eq_none_iff.trans (hr.trans finding_eq_none_iff.symm)
  cases hv : law.finding values r with
  | none =>
    rw [hnone.1 hv]
    exact .none
  | some v =>
    cases hv' : law.plain.finding values r' with
    | none => rw [hnone.2 hv'] at hv; cases hv
    | some v' =>
      exact .some ((isSuccess_of_finding hv).trans (isSuccess_of_finding hv').symm)

/-- A round with the plain law finds a failure exactly where the round with the law does. -/
theorem round_paired (i : Nat) :
    Paired Eq Event.Agrees (Option.Rel Verdict.Agrees) (law.round g i) (law.plain.round g i) := by
  refine (g.sample_paired i law.arity).bind fun sample sample' hsample => ?_
  subst hsample
  cases sample with
  | cut values error =>
    -- the predicate is not called, so there is nothing to replace
    refine (paired_emit (.same _)).bind fun _ _ _ => paired_pure ?_
    exact .some (Verdict.Agrees.refl _)
  | complete values =>
    refine (law.judge_paired values).bind fun r r' hr => ?_
    have hfinding := law.finding_agrees values hr
    generalize law.finding values r = o, law.plain.finding values r' = o' at hfinding
    cases hfinding with
    | none => exact paired_pure .none
    | some hv => exact (paired_emit (.same _)).bind fun _ _ _ => paired_pure (.some hv)

/-- The same round is the first that finds something, with the plain law and with the law. -/
theorem rounds_paired (n i : Nat) :
    Paired Eq Event.Agrees (Option.Rel Verdict.Agrees) (law.rounds g n i)
      (law.plain.rounds g n i) := by
  induction n generalizing i with
  | zero => exact paired_pure .none
  | succ n ih =>
    refine (law.round_paired g i).bind fun o o' ho => ?_
    cases ho with
    | none => exact ih (i + 1)
    | some hv => exact paired_pure (.some hv)

/-- **The check of the plain law goes side by side** with the check of the law. -/
theorem check_paired :
    Paired Eq Event.Agrees Verdict.Agrees (law.check g c) (law.plain.check g c) := by
  unfold check
  split
  · exact (paired_emit (.same _)).bind fun _ _ _ => paired_pure (Verdict.Agrees.refl _)
  · refine (law.rounds_paired g c.sampleSize 0).bind fun o o' ho => ?_
    cases ho with
    | none => exact (paired_emit (.same _)).bind fun _ _ _ => paired_pure (Verdict.Agrees.refl _)
    | some hv => exact paired_pure hv

end Law

namespace Constraint

mutual

/-- **A check of a plain constraint goes side by side** with the check of the constraint. -/
theorem check_paired : ∀ a : Constraint σ α,
    Paired Eq Event.Agrees Verdict.Agrees (a.check g c) (a.plain.check g c)
  | obeys law => law.check_paired g c
  | all parts => (checkEach_paired parts).bind fun _ _ hvs =>
      paired_pure ((Verdict.agrees_all hvs).under _)
  | any parts => (checkEach_paired parts).bind fun _ _ hvs =>
      paired_pure ((Verdict.agrees_any hvs).under _)

theorem checkEach_paired : ∀ parts : List (Constraint σ α),
    Paired Eq Event.Agrees (List.Forall₂ Verdict.Agrees) (checkEach g c parts)
      (checkEach g c (plainEach parts))
  | [] => paired_pure .nil
  | part :: parts => (check_paired part).bind fun _ _ hv =>
      (checkEach_paired parts).bind fun _ _ hvs => paired_pure (.cons hv hvs)

end

end Constraint

variable (cls : Class σ α) (id : ClassId)

/-- The laws of a class are opened, checked and closed side by side, and the two closings differ in
their texts at most. -/
theorem Class.checkLaws_paired :
    Paired Eq Event.Agrees Verdict.Agrees (cls.checkLaws id g c) (cls.plain.checkLaws id g c) := by
  refine (paired_emit (.same _)).bind fun _ _ _ => ?_
  refine (cls.laws.check_paired g c).bind fun v v' hv => ?_
  exact (paired_emit (.closed id g.id hv)).bind fun _ _ _ => paired_pure hv

namespace Hierarchy

theorem checkOwn_paired :
    Paired Eq Event.Agrees Verdict.Agrees (checkOwn g c id cls) (checkOwn g c id cls.plain) :=
  (cls.checkLaws_paired g c id).bind fun _ _ hv => paired_pure (hv.under _)

variable (h : Hierarchy σ α)

theorem checkFor_paired :
    Paired Eq Event.Agrees Verdict.Agrees (h.checkFor g c id) (h.plain.checkFor g c id) := by
  unfold checkFor
  rw [find_plain]
  cases h.find id with
  | error e => exact paired_pure (Verdict.Agrees.refl _)
  | ok cls => exact (cls.checkLaws_paired g c id).bind fun _ _ hv => paired_pure (hv.under _)

/-- **A walk through a plain hierarchy goes side by side** with the walk through the hierarchy. -/
theorem visit_paired (n : Nat) :
    Paired Survey.Agrees Event.Agrees Verdict.Agrees (h.visit g c n id)
      (h.plain.visit g c n id) := by
  induction n generalizing id with
  | zero => exact paired_pure (Verdict.Agrees.refl _)
  | succ n ih =>
    unfold visit
    refine (paired_emit (.same _)).bind fun _ _ _ => ?_
    rw [class?_plain]
    cases h.class? id with
    | none => exact paired_pure (Verdict.Agrees.refl _)
    | some cls =>
      refine (Survey.arrive_paired id).bind fun first _ hfirst => ?_
      subst hfirst
      refine (Survey.known_paired g.id id).bind fun o o' ho => ?_
      -- either both walks find a record, or both go on to the parents
      cases ho with
      | @some v v' hv =>
        refine (paired_emit (.same _)).bind fun _ _ _ => paired_pure ?_
        unfold recalled
        rw [hv]
        split
        · exact hv
        · exact Verdict.Agrees.refl _
      | none =>
        refine (Paired.mapM ih cls.parents).bind fun vs vs' hvs => ?_
        refine (Survey.onHost_paired (checkOwn_paired g c cls id)).bind fun v v' hv => ?_
        have hjoined := ((Verdict.agrees_all hvs).under
          (prerequisitesHeading g.name cls.name)).both hv
        exact (Survey.record_paired g.id id hjoined).bind fun _ _ _ => paired_pure hjoined

end Hierarchy

end Checks

/-! ### Registries -/

namespace Registry

/-- The second registry has the classes of the first one with plain laws, and records that agree. -/
structure Plain (r r' : Registry σ α) : Prop where
  hierarchy_eq : r'.hierarchy = r.hierarchy.plain
  ledger_agrees : r.ledger.Agrees r'.ledger

variable {r r' : Registry σ α}

/-- To register a draft goes by its name, its parents and the number of its laws, which the plain
draft has, too. -/
theorem Plain.register_paired (hr : r.Plain r') (d : Draft σ α) :
    Paired Eq Event.Agrees (fun x x' => x.1 = x'.1 ∧ x.2.Plain x'.2) (r.register d)
      (r'.register d.plain) := by
  unfold register
  rw [hr.hierarchy_eq, Hierarchy.register_plain]
  cases r.hierarchy.register d with
  | error e => exact paired_pure ⟨rfl, hr⟩
  | ok h =>
    have hcount : d.plain.toClass.laws.lawCount = d.toClass.laws.lawCount := by
      rw [Draft.toClass_plain]
      exact Constraint.lawCount_plain _
    simp only [Except.map, hcount, Hierarchy.nextId_plain]
    exact (paired_emit (.same _)).bind fun _ _ _ => paired_pure ⟨rfl, rfl, hr.ledger_agrees⟩

/-- **A request at a plain registry goes side by side** with the request at the registry. -/
theorem Plain.validate_paired [Inspectable α] (hr : r.Plain r') (id : ClassId)
    (g : Generator σ α) (c : Config) :
    Paired Eq Event.Agrees (fun x x' => x.1.Agrees x'.1 ∧ x.2.Plain x'.2) (r.validate id g c)
      (r'.validate id g c) := by
  obtain ⟨h, l⟩ := r
  obtain ⟨_, l'⟩ := r'
  obtain ⟨rfl, hl⟩ := hr
  rintro s _ rfl
  obtain ⟨hvalue, hsurvey, hevents⟩ := h.visit_paired g c id (id.index + 1) ⟨s, l, []⟩ ⟨s, l', []⟩
    ⟨rfl, hl, rfl⟩
  refine ⟨⟨hvalue, rfl, hsurvey.ledger_agrees⟩, hsurvey.host_eq, ?_⟩
  refine List.rel_append hevents (.cons ?_ .nil)
  have hclosing : ∀ v v' : Verdict, v.Agrees v' →
      closing ⟨h, l⟩ id g v = closing ⟨h.plain, l'⟩ id g v' := by
    intro v v' hv
    rw [closing, closing, hv, Hierarchy.nameOf_plain]
  exact hclosing _ _ hvalue ▸ .same _

end Registry

/-! ### Direct validation and declarations -/

/-- **A direct validation against plain classes goes side by side** with the direct validation. -/
theorem validateAll_paired [Inspectable α] (h : Hierarchy (World ω) α) (sub : Subject κ ω α)
    (k : GeneratorId) (m : Membership) (c : Config) :
    Paired Eq Event.Agrees Verdict.Agrees (validateAll h sub k m c)
      (validateAll h.plain sub k m c) := by
  unfold validateAll
  split
  · exact paired_pure (Verdict.Agrees.refl _)
  · rw [Hierarchy.agenda_plain]
    exact (Paired.mapM (fun id => h.checkFor_paired _ c id) _).bind fun _ _ hvs =>
      paired_pure (Verdict.agrees_all hvs)

/-- Answers that are equal except for the text of a report. -/
inductive InstanceError.Agrees :
    Except InstanceError Unit → Except InstanceError Unit → Prop
  | same (answer : Except InstanceError Unit) : Agrees answer answer
  | violated (subject names report report' : String) :
      Agrees (.error (.lawViolation subject names report))
        (.error (.lawViolation subject names report'))

namespace InstanceTable

variable [DecidableEq κ] [Inspectable α] (t : InstanceTable κ)

theorem validate_paired (h : Hierarchy (World ω) α) (sub : Subject κ ω α) (k : GeneratorId)
    (c : Config) :
    Paired Eq Event.Agrees (fun x x' => InstanceError.Agrees x.1 x'.1 ∧ x.2 = x'.2)
      (t.validate h sub k c) (t.validate h.plain sub k c) := by
  unfold validate
  cases t.membership? sub.key with
  | none => exact paired_pure ⟨.same _, rfl⟩
  | some m =>
    have hnames : m.classes.map h.plain.nameOf = m.classes.map h.nameOf :=
      congrArg m.classes.map (funext h.nameOf_plain)
    refine (validateAll_paired h sub k m c).bind fun v v' hv => ?_
    -- both verdicts are successes or both are failures
    cases v <;> cases v' <;> cases hv
    · exact (paired_emit (.same _)).bind fun _ _ _ => paired_pure ⟨.same _, rfl⟩
    · rw [hnames]
      exact (paired_emit (.same _)).bind fun _ _ _ => paired_pure ⟨.violated _ _ _ _, rfl⟩

/-- To enroll a subject goes by whether validation succeeds, which is the same on both sides. -/
theorem enroll_paired {r r' : Registry σ α} (hr : r.Plain r') (key : κ) (id : ClassId)
    (g : Generator σ α) (c : Config) :
    Paired Eq Event.Agrees
      (fun x x' => InstanceError.Agrees x.1 x'.1 ∧ x.2.1 = x'.2.1 ∧ x.2.2.Plain x'.2.2)
      (t.enroll r key id g c) (t.enroll r' key id g c) := by
  unfold enroll
  rw [hr.hierarchy_eq, Hierarchy.find_plain]
  cases r.hierarchy.find id with
  | error e => exact paired_pure ⟨.same _, rfl, hr⟩
  | ok cls =>
    refine (hr.validate_paired id g c).bind ?_
    rintro ⟨v, s⟩ ⟨v', s'⟩ ⟨hv, hs⟩
    cases v <;> cases v' <;> cases hv
    · exact paired_pure ⟨.same _, rfl, hs⟩
    · exact paired_pure ⟨.violated _ _ _ _, rfl, hs⟩

end InstanceTable

/-! ### Errands -/

/-- Replies that are equal except for the texts of reports. -/
inductive Reply.Agrees : Reply → Reply → Prop
  | same (reply : Reply) : Agrees reply reply
  | judged {v v' : Verdict} : v.Agrees v' → Agrees (.judged v) (.judged v')
  | declared {answer answer' : Except InstanceError Unit} :
      InstanceError.Agrees answer answer' → Agrees (.declared answer) (.declared answer')

/-- The second desk has the classes of the first one with plain laws, records that agree, and the
same declarations. -/
structure Desk.Plain (desk desk' : Desk κ σ α) : Prop where
  registry_plain : desk.registry.Plain desk'.registry
  table_eq : desk'.table = desk.table

namespace Errand

/-- The errand with plain laws. -/
def plain : Errand κ ω α → Errand κ ω α
  | register d => register d.plain
  | errand => errand

variable [DecidableEq κ] [Inspectable α]

/-- **Every errand with plain laws goes side by side** with the errand. -/
theorem run_paired {desk desk' : Desk κ (World ω) α} (hd : desk.Plain desk')
    (errand : Errand κ ω α) :
    Paired Eq Event.Agrees (fun x x' => x.1.Agrees x'.1 ∧ x.2.Plain x'.2) (errand.run desk)
      (errand.plain.run desk') := by
  obtain ⟨r, _⟩ := desk
  obtain ⟨r', t⟩ := desk'
  obtain ⟨hr, rfl⟩ := hd
  -- only a draft is itself made plain; all other errands are run as they are, at the plain desk
  cases errand with
  | proceed step => exact (paired_host _).bind fun _ _ _ => paired_pure ⟨.same _, hr, rfl⟩
  | register d =>
    refine (hr.register_paired d).bind fun x x' hx => ?_
    exact paired_pure ⟨hx.1 ▸ .same _, hx.2, rfl⟩
  | validate id g c =>
    exact (hr.validate_paired id g c).bind fun x x' hx => paired_pure ⟨.judged hx.1, hx.2, rfl⟩
  | validateAll sub k m c =>
    unfold plain run
    rw [hr.hierarchy_eq]
    exact (validateAll_paired r.hierarchy sub k m c).bind fun v v' hv =>
      paired_pure ⟨.judged hv, hr, rfl⟩
  | declare key id => exact paired_pure ⟨.same _, hr, rfl⟩
  | confirm sub k c =>
    unfold plain run
    rw [hr.hierarchy_eq]
    exact (t.validate_paired r.hierarchy sub k c).bind fun x x' hx =>
      paired_pure ⟨.declared hx.1, hr, hx.2.symm⟩
  | enroll key id g c =>
    exact (t.enroll_paired hr key id g c).bind fun x x' hx =>
      paired_pure ⟨.declared hx.1, hx.2.2, hx.2.1.symm⟩

/-- **All errands with plain laws go side by side** with the errands, by induction on the list. -/
theorem runEach_paired {desk desk' : Desk κ (World ω) α} (hd : desk.Plain desk')
    (errands : List (Errand κ ω α)) :
    Paired Eq Event.Agrees (fun x x' => List.Forall₂ Reply.Agrees x.1 x'.1 ∧ x.2.Plain x'.2)
      (runEach desk errands) (runEach desk' (errands.map plain)) := by
  induction errands generalizing desk desk' with
  | nil => exact paired_pure ⟨.nil, hd⟩
  | cons errand errands ih =>
    refine (errand.run_paired hd).bind fun x x' hx => ?_
    refine (ih hx.2).bind fun xs xs' hxs => ?_
    exact paired_pure ⟨.cons hx.1 hxs.1, hxs.2⟩

end Errand

/-! ### Generators that fail -/

/-- A continuous generator fails exactly where the function fails that builds its values. -/
theorem Continuous.get_error_iff (g : Continuous ω α) (i : Nat) (w : World ω) :
    (∃ e, (g.get i w).1 = .error e) ↔
      ∃ mishap, (g.build (g.params i w).1 (g.params i w).2.host).1 = .error mishap := by
  rw [value_get]
  cases (g.build (g.params i w).1 (g.params i w).2.host).1 <;> simp

/-- A discrete generator fails exactly if it has nothing to choose from. -/
theorem Discrete.get_error_iff (g : Discrete α) (i : Nat) (w : World ω) :
    (∃ e, (g.get i w).1 = .error e) ↔ g.values = [] := by
  unfold get
  split
  · next hlen =>
    refine iff_of_false ?_ (List.ne_nil_of_length_pos hlen)
    rintro ⟨e, he⟩
    cases he
  · next hlen =>
    refine iff_of_true ⟨_, rfl⟩ ?_
    exact List.eq_nil_of_length_eq_zero (Nat.eq_zero_of_not_pos hlen)

/-! ### The whole run -/

namespace Errand

/-- Two runs of errands from one state of the world differ in the texts of reports only. -/
structure DifferInTexts (m m' : Run (World ω) (Event α) (List Reply × Desk κ (World ω) α))
    (w : World ω) : Prop where
  /-- One by one, the replies have the same verdicts and the same errors. -/
  replies_agree : List.Forall₂ Reply.Agrees (m.value w).1 (m'.value w).1
  /-- The same values are asked for, and the same predicates are called on the same values. -/
  calls_eq : Event.calls (m.events w) = Event.calls (m'.events w)
  /-- The same is logged. -/
  notices_eq : Event.notices (m.events w) = Event.notices (m'.events w)
  /-- All sources of random numbers are read equally far, and the host is in the same state. -/
  world_eq : m.final w = m'.final w
  /-- The classes are the same but for their predicates, and so are the declarations, -/
  desk_plain : (m.value w).2.Plain (m'.value w).2
  /-- and the same pairs of generators and classes are recorded. -/
  contains_eq : ∀ k d, (m.value w).2.registry.ledger.contains k d =
    (m'.value w).2.registry.ledger.contains k d

/-- Runs that go side by side differ in texts only. -/
theorem differInTexts_of_paired
    {m m' : Run (World ω) (Event α) (List Reply × Desk κ (World ω) α)}
    (hm : Paired Eq Event.Agrees
      (fun x x' => List.Forall₂ Reply.Agrees x.1 x'.1 ∧ x.2.Plain x'.2) m m') (w : World ω) :
    DifferInTexts m m' w := by
  obtain ⟨⟨hreplies, hdesk⟩, hworld, hevents⟩ := hm w w rfl
  exact {
    replies_agree := hreplies
    calls_eq := Event.calls_eq_of_agrees hevents
    notices_eq := Event.notices_eq_of_agrees hevents
    world_eq := hworld
    desk_plain := hdesk
    contains_eq := hdesk.registry_plain.ledger_agrees.contains_eq }

variable [DecidableEq κ] [Inspectable α]

/-- Errands count what callbacks of the host fail to do as broken laws, and as nothing else. -/
structure CountMishaps (errands : List (Errand κ ω α)) (w : World ω) : Prop where
  /-- Every errand comes back with a reply of its own kind. -/
  answered : List.Forall₂ Answered errands ((runEach .empty errands).value w).1
  /-- With `false` for all errors and crashes of predicates, only texts differ. -/
  differ : DifferInTexts (runEach .empty errands) (runEach .empty (errands.map plain)) w
  /-- Every check is skipped, or all of its rounds pass, or it ends with the first that breaks. -/
  ends : ∀ (law : Law (World ω) α) (g : Generator (World ω) α) (c : Config) (s : World ω),
    law.Ends g c s ((law.check g c).value s) ((law.check g c).final s) ((law.check g c).events s)
  /-- A round that breaks is a failure, also where it is the generator that fails. -/
  breaks : ∀ (law : Law (World ω) α) (g : Generator (World ω) α) (i : Nat) (s t : World ω)
    (v : Verdict) (es : List (Event α)), law.Breaks g i s v t es → v.isSuccess = false
  /-- A continuous generator fails exactly if its function fails or crashes, -/
  continuous : ∀ (g : Continuous ω α) (i : Nat) (s : World ω), (∃ e, (g.get i s).1 = .error e) ↔
    ∃ mishap, (g.build (g.params i s).1 (g.params i s).2.host).1 = .error mishap
  /-- and a discrete one exactly if there is nothing to choose from. -/
  discrete : ∀ (g : Discrete α) (i : Nat) (s : World ω), (∃ e, (g.get i s).1 = .error e) ↔
    g.values = []

/-- **Errors and crashes count as broken laws, and as nothing else.**  Whatever predicates and
generators do, every errand is answered.  If all predicates answered `false` where they end in an
error or a crash, the verdicts, the calls, the draws of random numbers and the recorded pairs of
generators and classes would be the same; only texts would differ.  A generator that fails ends the
check of a law as a failure, too. -/
theorem mishaps_count_as_broken (errands : List (Errand κ ω α)) (w : World ω) :
    CountMishaps errands w where
  answered := runEach_answered .empty errands w
  differ := by
    have hempty : (Desk.empty : Desk κ (World ω) α).Plain .empty :=
      ⟨⟨Hierarchy.plain_empty.symm, Ledger.Agrees.refl _⟩, rfl⟩
    exact differInTexts_of_paired (runEach_paired hempty errands) w
  ends := fun law g c s => law.check_ends g c s
  breaks := fun _ _ _ _ _ _ _ hb => hb.isSuccess_eq
  continuous := Continuous.get_error_iff
  discrete := Discrete.get_error_iff

end Errand

end Lawbook
