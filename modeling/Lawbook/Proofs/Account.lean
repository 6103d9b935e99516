/-
Lawbook/Proofs/Account.lean

Accounts: how each record of a registry came about.

A record for a generator and a class goes back to one check of the laws of that class, made for a
handle of that generator, and to the records of the parents.  This is the invariant of a registry,
`Audited`: whoever asks for what in which order, each record has such an account, and a class
without a record was never checked.

An account is not disturbed by what comes later (`Account.mono`): its class stays, the records of
the parents stay, and as long as nothing opens the class for the generator again, the check stays
the only one.  On a way onward nothing does, so old accounts stay (`Onward.account`), and a record
that is made on the way has an account for a handle that asked there (`Onward.exists_account`).
Hence the invariant holds after every sequence of requests (`Desk.after_audited`).
-/
import Lawbook.Proofs.Requests

namespace Lawbook

open Event

variable {κ σ α : Type} [Inspectable α]

/-! ### The account of one record -/

/-- The account of the record `v` of the class `d`: its laws were checked once, for the handle `g`
with the configuration `c` and the host state `s`, and `v` is what they and the records of the
parents come to. -/
structure Account (h : Hierarchy σ α) (l : Ledger) (es : List (Event α)) (g : Generator σ α)
    (c : Config) (s : σ) (cls : Class σ α) (d : ClassId) (v : Verdict) : Prop where
  class?_eq : h.class? d = some cls
  verdict_eq : ∃ inherited, List.Forall₂ (h.Inherits g l) cls.parents inherited ∧
    v = Hierarchy.joined g.name cls.name inherited ((cls.laws.check g c).value s)
  openings_eq : openings g.id d es = [c.skip]
  closings_eq : closings g.id d es = [(cls.laws.check g c).value s]

namespace Hierarchy

omit [Inspectable α] in
/-- What is taken over from a parent is still there when more classes and records are. -/
theorem Inherits.mono {h h' : Hierarchy σ α} {g : Generator σ α} {l l' : Ledger} {p : ClassId}
    {v : Verdict} (hv : h.Inherits g l p v) (hg : h.Grows h') (hp : p.index < h.size)
    (hl : ∀ w, l.verdict? g.id p = some w → l'.verdict? g.id p = some w) :
    h'.Inherits g l' p v := by
  obtain ⟨first, w, hw, rfl⟩ := hv
  refine ⟨first, w, hl w hw, ?_⟩
  rw [hg.nameOf_eq hp]

omit [Inspectable α] in
/-- More records leave what is taken over from a parent as it is. -/
theorem Inherits.mono_ledger {h : Hierarchy σ α} {g : Generator σ α} {l l' : Ledger} {p : ClassId}
    {v : Verdict} (hv : h.Inherits g l p v)
    (hl : ∀ w, l.verdict? g.id p = some w → l'.verdict? g.id p = some w) :
    h.Inherits g l' p v := by
  obtain ⟨first, w, hw, rfl⟩ := hv
  exact ⟨first, w, hl w hw, rfl⟩

end Hierarchy

namespace Account

variable {h h' : Hierarchy σ α} {l l' : Ledger} {es es' : List (Event α)} {g : Generator σ α}
variable {c : Config} {s : σ} {cls : Class σ α} {d : ClassId} {v : Verdict}

/-- What comes later does not disturb an account, unless the class is opened again. -/
theorem mono (ha : Account h l es g c s cls d v) (hg : h.Grows h')
    (hl : ∀ p w, l.verdict? g.id p = some w → l'.verdict? g.id p = some w)
    (ho : openings g.id d es' = []) (hcl : closings g.id d es' = []) :
    Account h' l' (es ++ es') g c s cls d v := by
  obtain ⟨inherited, hi, hv⟩ := ha.verdict_eq
  have hparents : ∀ p ∈ cls.parents, p.index < h.size := by
    intro p hp
    have hlt := h.parents_lt _ _ ha.class?_eq p hp
    exact Nat.lt_trans hlt (Hierarchy.lt_size_of_class? ha.class?_eq)
  refine ⟨hg d cls ha.class?_eq, ⟨inherited, ?_, hv⟩, ?_, ?_⟩
  · exact ((List.forall₂_and_left _ _).2 ⟨hparents, hi⟩).imp
      fun p w hw => hw.2.mono hg hw.1 (hl p)
  · rw [openings_append, ha.openings_eq, ho, List.append_nil]
  · rw [closings_append, ha.closings_eq, hcl, List.append_nil]

/-- More classes do not disturb an account. -/
theorem grow (ha : Account h l es g c s cls d v) (hg : h.Grows h') :
    Account h' l es g c s cls d v := by
  have ha' : Account h' l (es ++ []) g c s cls d v := ha.mono hg (fun _ _ hw => hw) rfl rfl
  rwa [List.append_nil] at ha'

/-- What came before does not disturb an account either, if it did not open the class. -/
theorem behind {before : List (Event α)} (ha : Account h l es g c s cls d v)
    (ho : openings g.id d before = []) (hcl : closings g.id d before = []) :
    Account h l (before ++ es) g c s cls d v := by
  refine ⟨ha.class?_eq, ha.verdict_eq, ?_, ?_⟩
  · rw [openings_append, ho, ha.openings_eq, List.nil_append]
  · rw [closings_append, hcl, ha.closings_eq, List.nil_append]

/-- The walk between the calls into the host makes no difference to an account. -/
theorem of_work (ha : Account h l (work es) g c s cls d v) : Account h l es g c s cls d v :=
  ⟨ha.class?_eq, ha.verdict_eq, openings_work g.id d es ▸ ha.openings_eq,
    closings_work g.id d es ▸ ha.closings_eq⟩

/-- To settle another class does not disturb an account. -/
theorem settle {g' : Generator σ α} {c' : Config} {s' : σ} {id : ClassId} {cls' : Class σ α}
    {w : Verdict} (ha : Account h l es g c s cls d v) (hne : ¬ (id = d ∧ g'.id = g.id)) :
    Account h (l.record g'.id id w) (es ++ work ((cls'.checkLaws id g' c').events s')) g c s cls d
      v := by
  refine ha.mono (.refl h) (fun _ _ hw => Ledger.verdict?_record_of_some hw ..) ?_ ?_
  · rw [openings_work, Class.openings_checkLaws, if_neg hne]
  · rw [closings_work, Class.closings_checkLaws, if_neg hne]

/-- To settle a class makes an account of its record, if the class was not opened before. -/
theorem of_settle {inherited : List Verdict} (hc : h.class? d = some cls)
    (hi : List.Forall₂ (h.Inherits g l) cls.parents inherited)
    (ho : openings g.id d es = []) (hcl : closings g.id d es = []) :
    Account h
      (l.record g.id d
        (Hierarchy.joined g.name cls.name inherited ((cls.checkLaws d g c).value s)))
      (es ++ work ((cls.checkLaws d g c).events s)) g c s cls d
      (Hierarchy.joined g.name cls.name inherited ((cls.checkLaws d g c).value s)) := by
  refine behind ⟨hc, ⟨inherited, hi.imp fun _ _ hw => ?_, rfl⟩, ?_, ?_⟩ ho hcl
  · exact hw.mono_ledger fun _ hp => Ledger.verdict?_record_of_some hp ..
  · rw [openings_work, Class.openings_checkLaws, if_pos ⟨rfl, rfl⟩]
  · rw [closings_work, Class.closings_checkLaws, if_pos ⟨rfl, rfl⟩]

/-- A class that holds has laws that hold and parents that are recorded as holding. -/
theorem eq_success_iff (ha : Account h l es g c s cls d v) :
    v = .success ↔ (cls.laws.check g c).value s = .success ∧
      ∀ p ∈ h.parentsOf d, l.verdict? g.id p = some .success := by
  obtain ⟨inherited, hi, rfl⟩ := ha.verdict_eq
  rw [Hierarchy.joined_eq_success_iff hi, Hierarchy.parentsOf_eq ha.class?_eq]

/-- The parents of a class with an account are recorded. -/
theorem parents_isSome (ha : Account h l es g c s cls d v) {p : ClassId}
    (hp : p ∈ h.parentsOf d) : (l.verdict? g.id p).isSome := by
  obtain ⟨inherited, hi, -⟩ := ha.verdict_eq
  exact Hierarchy.isSome_of_inherits hi (Hierarchy.parentsOf_eq ha.class?_eq ▸ hp)

end Account

/-! ### The invariant -/

/-- There is an account of every record, for a handle that was asked, and a class without a record
was never opened. -/
structure Audited (Asks : Generator σ α → Config → Prop) (r : Registry σ α) (es : List (Event α)) :
    Prop where
  accounted : ∀ k d v, r.ledger.verdict? k d = some v → ∃ g c s cls, g.id = k ∧ Asks g c ∧
    Account r.hierarchy r.ledger es g c s cls d v
  openings_nil : ∀ k d, r.ledger.verdict? k d = none → openings k d es = []
  closings_nil : ∀ k d, r.ledger.verdict? k d = none → closings k d es = []

namespace Audited

variable {Asks : Generator σ α → Config → Prop} {r : Registry σ α} {es : List (Event α)}

theorem empty (Asks : Generator σ α → Config → Prop) : Audited Asks .empty [] := by
  refine ⟨?_, fun _ _ _ => rfl, fun _ _ _ => rfl⟩
  intro k d v hv
  cases hv

/-- More classes leave the accounts as they are. -/
theorem grow {h h' : Hierarchy σ α} {l : Ledger} (ha : Audited Asks ⟨h, l⟩ es) (hg : h.Grows h') :
    Audited Asks ⟨h', l⟩ es := by
  refine ⟨?_, ha.openings_nil, ha.closings_nil⟩
  intro k d v hv
  obtain ⟨g, c, s, cls, hk, hasks, hacc⟩ := ha.accounted k d v hv
  exact ⟨g, c, s, cls, hk, hasks, hacc.grow hg⟩

theorem mono {Asks' : Generator σ α → Config → Prop} (ha : Audited Asks r es)
    (himp : ∀ g c, Asks g c → Asks' g c) : Audited Asks' r es := by
  refine ⟨?_, ha.openings_nil, ha.closings_nil⟩
  intro k d v hv
  obtain ⟨g, c, s, cls, hk, hasks, hacc⟩ := ha.accounted k d v hv
  exact ⟨g, c, s, cls, hk, himp g c hasks, hacc⟩

/-! ### What the accounts say together -/

variable {k : GeneratorId} {d a : ClassId}

/-- What is recorded is registered. -/
theorem lt_size (ha : Audited Asks r es) (hd : (r.ledger.verdict? k d).isSome) :
    d.index < r.hierarchy.size := by
  obtain ⟨v, hv⟩ := Option.isSome_iff_exists.1 hd
  obtain ⟨g, c, s, cls, -, -, hacc⟩ := ha.accounted k d v hv
  exact Hierarchy.lt_size_of_class? hacc.class?_eq

/-- The parents of what is recorded are recorded. -/
theorem parents_isSome (ha : Audited Asks r es) (hd : (r.ledger.verdict? k d).isSome)
    {p : ClassId} (hp : p ∈ r.hierarchy.parentsOf d) : (r.ledger.verdict? k p).isSome := by
  obtain ⟨v, hv⟩ := Option.isSome_iff_exists.1 hd
  obtain ⟨g, c, s, cls, rfl, -, hacc⟩ := ha.accounted k d v hv
  exact hacc.parents_isSome hp

/-- What is recorded has all its ancestors recorded. -/
theorem isSome_of_descends (ha : Audited Asks r es) (hd : (r.ledger.verdict? k d).isSome)
    (hda : r.hierarchy.Descends d a) : (r.ledger.verdict? k a).isSome := by
  induction hda with
  | refl => exact hd
  | tail _ he ih => exact ha.parents_isSome ih he

/-- What is recorded as holding has all its ancestors recorded as holding. -/
theorem success_of_descends (ha : Audited Asks r es)
    (hd : r.ledger.verdict? k d = some .success) (hda : r.hierarchy.Descends d a) :
    r.ledger.verdict? k a = some .success := by
  induction hda with
  | refl => exact hd
  | tail _ he ih =>
    obtain ⟨g, c, s, cls, rfl, -, hacc⟩ := ha.accounted k _ _ ih
    exact (hacc.eq_success_iff.1 rfl).2 _ he

end Audited

/-! ### On the way onward -/

namespace Onward

variable {Asks : Generator σ α → Config → Prop} {r r' : Registry σ α} {es es' : List (Event α)}
variable {g : Generator σ α} {c : Config} {s : σ} {cls : Class σ α}
variable {k : GeneratorId} {d : ClassId} {v : Verdict}

/-- A class is opened only if it has a record in the end. -/
theorem openings_nil (ho : Onward Asks r r' es) (hv : r'.ledger.verdict? k d = none) :
    openings k d es = [] ∧ closings k d es = [] := by
  induction ho with
  | refl => exact ⟨rfl, rfl⟩
  | grow _ _ ih => exact ih hv
  | settle _ _ _ _ _ ih =>
    obtain ⟨hnone, hne⟩ := Ledger.verdict?_record_eq_none hv
    obtain ⟨hopen, hclose⟩ := ih hnone
    constructor
    · rw [openings_append, hopen, openings_work, Class.openings_checkLaws, if_neg (mt And.symm hne)]
      rfl
    · rw [closings_append, hclose, closings_work, Class.closings_checkLaws,
        if_neg (mt And.symm hne)]
      rfl

/-- The account of an old record stays in order. -/
theorem account (ho : Onward Asks r r' es')
    (ha : Account r.hierarchy r.ledger es g c s cls d v)
    (hv : r.ledger.verdict? g.id d = some v) :
    Account r'.hierarchy r'.ledger (es ++ es') g c s cls d v := by
  induction ho with
  | refl => rwa [List.append_nil]
  | grow _ hg ih => exact ih.grow hg
  | settle ho _ _ hnone _ ih =>
    rw [← List.append_assoc]
    refine ih.settle ?_
    -- the class that is settled had no record, and this one has
    rintro ⟨rfl, hk⟩
    have hkept := ho.keeps hv
    rw [← hk, hnone] at hkept
    cases hkept

/-- A new record has an account, for a handle that asked on the way. -/
theorem exists_account (ho : Onward Asks r r' es) (hnone : r.ledger.verdict? k d = none)
    (hv : r'.ledger.verdict? k d = some v) :
    ∃ g c s cls, g.id = k ∧ Asks g c ∧ Account r'.hierarchy r'.ledger es g c s cls d v := by
  induction ho with
  | refl =>
    rw [hnone] at hv
    cases hv
  | grow _ hg ih =>
    obtain ⟨g, c, s, cls, hk, hasks, hacc⟩ := ih hv
    exact ⟨g, c, s, cls, hk, hasks, hacc.grow hg⟩
  | settle ho hasks hc hfresh hi ih =>
    rcases Ledger.verdict?_record_eq_some hv with hold | ⟨hnew, rfl, rfl, rfl⟩
    · obtain ⟨g, c, s, cls, rfl, hasks', hacc⟩ := ih hold
      refine ⟨g, c, s, cls, rfl, hasks', hacc.settle ?_⟩
      rintro ⟨rfl, hk⟩
      rw [hk, hold] at hfresh
      cases hfresh
    · obtain ⟨hopen, hclose⟩ := ho.openings_nil hnew
      exact ⟨_, _, _, _, rfl, hasks, .of_settle hc hi hopen hclose⟩

/-- **The accounts of a registry stay in order** on every way onward. -/
theorem audited (ho : Onward Asks r r' es') (ha : Audited Asks r es) :
    Audited Asks r' (es ++ es') := by
  have hold : ∀ {k d}, r'.ledger.verdict? k d = none → r.ledger.verdict? k d = none := by
    intro k d hv
    refine Option.eq_none_iff_forall_not_mem.2 fun w hw => ?_
    rw [ho.keeps hw] at hv
    cases hv
  refine ⟨?_, ?_, ?_⟩
  · intro k d v hv
    cases hr : r.ledger.verdict? k d with
    -- a record that was there keeps its value, and its account
    | some w =>
      obtain rfl : w = v := Option.some_inj.1 ((ho.keeps hr).symm.trans hv)
      obtain ⟨g, c, s, cls, rfl, hasks, hacc⟩ := ha.accounted k d w hr
      exact ⟨g, c, s, cls, rfl, hasks, ho.account hacc hr⟩
    -- a new one has its account on the way, and no event before tells of its pair
    | none =>
      obtain ⟨g, c, s, cls, rfl, hasks, hacc⟩ := ho.exists_account hr hv
      refine ⟨g, c, s, cls, rfl, hasks, hacc.behind ?_ ?_⟩
      · exact ha.openings_nil _ d hr
      · exact ha.closings_nil _ d hr
  · intro k d hv
    rw [openings_append, ha.openings_nil k d (hold hv), (ho.openings_nil hv).1]
    rfl
  · intro k d hv
    rw [closings_append, ha.closings_nil k d (hold hv), (ho.openings_nil hv).2]
    rfl

end Onward

/-- The accounts are in order after every sequence of requests. -/
theorem Desk.after_audited [DecidableEq κ] (qs : List (Request κ σ α)) (s : σ) :
    Audited (Asked qs) (Desk.after qs s).registry (work (Desk.history qs s)) :=
  (Desk.empty.serve_onward s qs).audited (.empty _)

/-! ### One request more -/

section Request

variable {Asks : Generator σ α → Config → Prop} {r r' : Registry σ α} {es es' : List (Event α)}
variable {id d : ClassId} {g : Generator σ α} {c : Config} {s s' : σ} {v : Verdict}
variable {plan : List ClassId}

/-- The accounts are in order after one request more, which is asked for as well. -/
theorem Audited.validate (ha : Audited Asks r es) (id : ClassId) (g : Generator σ α) (c : Config)
    (s : σ) :
    Audited (fun g' c' => Asks g' c' ∨ (g' = g ∧ c' = c)) ((r.validate id g c).value s).2
      (es ++ work ((r.validate id g c).events s)) := by
  have ho : Onward (fun g' c' => Asks g' c' ∨ (g' = g ∧ c' = c)) r
      ((r.validate id g c).value s).2 (work ((r.validate id g c).events s)) :=
    r.validate_onward s (.inr ⟨rfl, rfl⟩) id
  exact ho.audited (ha.mono fun _ _ => .inl)

/-- The accounts are in order after a sequence of requests and one request more. -/
theorem Desk.after_validate_audited [DecidableEq κ] (qs : List (Request κ σ α)) (s₀ s : σ)
    (id : ClassId) (g : Generator σ α) (c : Config) :
    Audited (Asked (qs ++ [.validate id g c]))
      (((Desk.after qs s₀).registry.validate id g c).value s).2
      (work (Desk.history qs s₀ ++ ((Desk.after qs s₀).registry.validate id g c).events s)) := by
  rw [work_append]
  refine ((Desk.after_audited qs s₀).validate id g c s).mono ?_
  rintro g' c' (⟨q, hq, hasks⟩ | ⟨rfl, rfl⟩)
  · exact ⟨q, List.mem_append_left _ hq, hasks⟩
  · exact ⟨_, List.mem_append_right _ List.mem_cons_self, rfl⟩

/-- A request records the requested class and its ancestors. -/
theorem Registry.Validated.isSome_iff (hv : r.Validated r' id g c s s' v plan es')
    (ha : Audited Asks r' es) :
    (r'.ledger.verdict? g.id d).isSome ↔
      (r.ledger.verdict? g.id d).isSome ∨ r.hierarchy.Descends id d := by
  constructor
  · intro hd
    exact (hv.settles.isSome_iff.1 hd).imp_right (hv.descends d)
  · rintro (hd | hd)
    · exact hv.settles.isSome_iff.2 (.inl hd)
    · have hid : (r'.ledger.verdict? g.id id).isSome := by
        rw [hv.recorded]
        rfl
      exact ha.isSome_of_descends hid (hv.hierarchy_eq.symm ▸ hd)

/-- A request settles those of the requested class and its ancestors that had no record. -/
theorem Registry.Validated.mem_plan_iff (hv : r.Validated r' id g c s s' v plan es')
    (ha : Audited Asks r' es) :
    d ∈ plan ↔ r.hierarchy.Descends id d ∧ r.ledger.verdict? g.id d = none := by
  constructor
  · exact fun hd => ⟨hv.descends d hd, hv.settles.fresh hd⟩
  · rintro ⟨hd, hn⟩
    have hd' := hv.settles.isSome_iff.1 ((hv.isSome_iff ha).2 (.inr hd))
    rw [hn] at hd'
    exact hd'.resolve_left Bool.false_ne_true

end Request

end Lawbook
