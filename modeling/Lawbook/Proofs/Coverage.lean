/-
Lawbook/Proofs/Coverage.lean

Coverage: what a direct validation checks, and what it leaves alone.

The agenda of a direct validation holds each declared class and each ancestor once, however the
lineages overlap.  So the run through it is determined by what the check of one class does, class by
class: the events of the other classes do not count for it (`openings_mapM_checkFor`,
`value_mapM_checkFor`).  A class that is not there is on the agenda only if it was declared, since
the parents of a class are there; it adds one line to the report, and this line can be told from
what the other classes add, which begins in another way.

Main result: `validateAll_covers`.
-/
import Lawbook.Proofs.Direct
import Lawbook.Proofs.Errands
import Lawbook.Proofs.Grouping
import Lawbook.Proofs.Printed

namespace Lawbook

open Event Run

variable {κ σ ω α β γ : Type}

/-! ### Lines about classes that are not there -/

/-- Different classes have different lines: their numbers can be read off the digits. -/
theorem ClassError.unknownClass_message_inj {d d' : ClassId} :
    (unknownClass d).message = (unknownClass d').message ↔ d = d' := by
  refine ⟨fun he => ?_, fun he => he ▸ rfl⟩
  have hinspect : "Unknown class " ++ ("ClassId(" ++ toString d.index ++ ")") =
      "Unknown class " ++ ("ClassId(" ++ toString d'.index ++ ")") := he
  simp only [String.append_right_inj, String.append_left_inj] at hinspect
  have hdigits : Nat.toDigits 10 d.index = Nat.toDigits 10 d'.index := by
    rw [← Nat.toList_repr, ← Nat.toList_repr]
    exact congrArg String.toList hinspect
  have hread : ∀ n, Nat.ofDigitChars 10 (Nat.toDigits 10 n) 0 = n :=
    fun n => Nat.ofDigitChars_toDigits (by decide) (by decide)
  exact ClassId.ext (by rw [← hread d.index, hdigits, hread])

theorem ClassError.solid_unknownClass (d : ClassId) : Text.Solid (unknownClass d).message := by
  have hlast : Text.Solid ")" := ⟨[], ')', rfl, by decide⟩
  exact (hlast.append_left ("ClassId(" ++ toString d.index)).append_left "Unknown class "

theorem ClassError.fail_unknownClass (d : ClassId) :
    Verdict.fail (unknownClass d).message = .failure (unknownClass d).message := by
  have hs := solid_unknownClass d
  rw [Verdict.fail_eq_failure hs.isBlankText_eq, hs.trimEnd_eq]

/-- Trimming keeps what is solid at the beginning. -/
theorem Text.Solid.exists_trimEnd_append {s : String} (hs : Solid s) (t : String) :
    ∃ r, trimEnd (s ++ t) = s ++ r := by
  cases ht : isBlankText t with
  | true => exact ⟨"", by rw [trimEnd_append_of_blank s ht, hs.trimEnd_eq, String.append_empty]⟩
  | false => exact ⟨trimEnd t, trimEnd_append_of_not_blank s ht⟩

/-- Every report on the laws of a class begins alike. -/
theorem Hierarchy.exists_report_under_subjectHeading {subject name report : String} {v : Verdict}
    (hr : (v.under (subjectHeading subject name)).report? = some report) :
    ∃ rest, report = "Class" ++ rest := by
  have hclass : Text.Solid "Class" := ⟨"Clas".toList, 's', rfl, by decide⟩
  cases v with
  | success => cases hr
  | failure text =>
    -- trimming is done twice, of the heading and of the whole report
    obtain ⟨r, hheading⟩ :=
      hclass.exists_trimEnd_append (" " ++ subject ++ " fails the laws of " ++ name)
    obtain ⟨rest, hreport⟩ := hclass.exists_trimEnd_append (r ++ ("\n\n" ++ text))
    have hsplit : subjectHeading subject name =
        "Class" ++ (" " ++ subject ++ " fails the laws of " ++ name) := by
      show "Class " ++ subject ++ " fails the laws of " ++ name = _
      rw [← String.append_assoc, ← String.append_assoc, ← String.append_assoc]
      rfl
    have hfail : Verdict.fail (subjectHeading subject name) = .failure ("Class" ++ r) := by
      rw [Verdict.fail_eq_failure (isBlankText_subjectHeading subject name), hsplit, hheading]
    rw [Verdict.under, hfail] at hr
    · refine ⟨rest, ?_⟩
      rw [← hreport, ← Option.some_inj, ← hr]
      show some (Verdict.joinReports text ("Class" ++ r)) = _
      rw [Verdict.joinReports, String.append_assoc, String.append_assoc]
    · intro hs
      cases hs

theorem ClassError.unknownClass_message_ne (d : ClassId) (rest : String) :
    (unknownClass d).message ≠ "Class" ++ rest := by
  intro he
  have hlist := congrArg String.toList he
  have hunknown : (unknownClass d).message.toList =
      'U' :: ("nknown class ".toList ++ d.inspect.toList) := by
    show ("Unknown class " ++ d.inspect).toList = _
    rw [String.toList_append]
    rfl
  rw [hunknown, String.toList_append] at hlist
  cases hlist

/-! ### The check of one class -/

namespace Hierarchy

variable {h : Hierarchy σ α} {d d' : ClassId} {ds : List ClassId} {cls : Class σ α}

/-- Those of several classes that are there. -/
def registered (h : Hierarchy σ α) (ds : List ClassId) : List ClassId :=
  ds.filter fun d => (h.class? d).isSome

theorem mem_registered_iff : d ∈ h.registered ds ↔ d ∈ ds ∧ d.index < h.size := by
  rw [registered, List.mem_filter, class?_isSome_iff]

variable [Inspectable α] (g : Generator σ α) (c : Config) (k : GeneratorId) (s : σ)

/-- What a class comes to for a subject, as it shows in the events: that it is not there, or how it
was closed, under the heading of the subject. -/
def finding (h : Hierarchy σ α) (g : Generator σ α) (es : List (Event α)) (d : ClassId) : Verdict :=
  match h.class? d with
  | none => Verdict.fail (ClassError.unknownClass d).message
  | some cls =>
    ((closings g.id d es).headD .success).under (subjectHeading g.name cls.name)

theorem openings_checkFor (d d' : ClassId) : openings k d' ((h.checkFor g c d).events s) =
    if d' ∈ h.registered [d] ∧ g.id = k then [c.skip] else [] := by
  simp only [mem_registered_iff, List.mem_singleton]
  cases hc : h.class? d with
  | none =>
    have hd : ¬ ((d' = d ∧ d'.index < h.size) ∧ g.id = k) := by
      rintro ⟨⟨rfl, hlt⟩, -⟩
      rw [← class?_isSome_iff, hc] at hlt
      cases hlt
    rw [checkFor_of_none hc, if_neg hd]
    rfl
  | some cls =>
    have hd : (d = d' ∧ g.id = k) ↔ ((d' = d ∧ d'.index < h.size) ∧ g.id = k) := by
      have hlt := lt_size_of_class? hc
      constructor
      · rintro ⟨rfl, hk⟩
        exact ⟨⟨rfl, hlt⟩, hk⟩
      · rintro ⟨⟨rfl, -⟩, hk⟩
        exact ⟨rfl, hk⟩
    rw [checkFor_of_class? hc, events_bind, openings_append, Class.openings_checkLaws]
    simp only [hd]
    exact List.append_nil _

theorem closings_checkFor_of_ne (hne : d ≠ d') :
    closings k d' ((h.checkFor g c d).events s) = [] := by
  cases hc : h.class? d with
  | none =>
    rw [checkFor_of_none hc]
    rfl
  | some cls =>
    rw [checkFor_of_class? hc, events_bind, closings_append, Class.closings_checkLaws,
      if_neg fun he => hne he.1]
    rfl

theorem closings_checkFor (hc : h.class? d = some cls) :
    closings g.id d ((h.checkFor g c d).events s) = [(cls.laws.check g c).value s] := by
  rw [checkFor_of_class? hc, events_bind, closings_append, Class.closings_checkLaws,
    if_pos ⟨rfl, rfl⟩]
  rfl

/-- The check of a class comes to what shows in its events, whatever happens behind them. -/
theorem value_checkFor (es : List (Event α)) : (h.checkFor g c d).value s =
    h.finding g ((h.checkFor g c d).events s ++ es) d := by
  unfold finding
  cases hc : h.class? d with
  | none =>
    rw [checkFor_of_none hc]
    rfl
  | some cls =>
    dsimp only
    rw [closings_append, closings_checkFor g c s hc, checkFor_of_class? hc, value_bind, value_pure,
      Class.value_checkLaws]
    rfl

omit [Inspectable α] in
/-- Events in front that do not close a class do not change what it comes to. -/
theorem finding_append_of_closings_eq_nil {es : List (Event α)} (hes : closings g.id d es = [])
    (es' : List (Event α)) : h.finding g (es ++ es') d = h.finding g es' d := by
  unfold finding
  rw [closings_append, hes, List.nil_append]

/-! ### The run through several classes -/

/-- Different classes that are there are opened once each, with the one generator. -/
theorem openings_mapM_checkFor (hn : ds.Nodup) (d : ClassId) :
    openings k d ((ds.mapM (h.checkFor g c)).events s) =
      if d ∈ h.registered ds ∧ g.id = k then [c.skip] else [] := by
  induction ds generalizing s with
  | nil => simp [registered, openings]
  | cons d' ds ih =>
    obtain ⟨hnot, hn⟩ := List.nodup_cons.1 hn
    rw [events_mapM_cons, openings_append, openings_checkFor, ih _ hn]
    simp only [mem_registered_iff, List.mem_cons]
    by_cases hd : d = d'
    · subst hd
      simp [hnot]
    · simp [hd]

theorem closings_mapM_checkFor_of_not_mem (hd : d ∉ ds) :
    closings k d ((ds.mapM (h.checkFor g c)).events s) = [] := by
  induction ds generalizing s with
  | nil => rfl
  | cons d' ds ih =>
    obtain ⟨hne, hd⟩ := not_or.1 (mt List.mem_cons.2 hd)
    rw [events_mapM_cons, closings_append, closings_checkFor_of_ne g c k s (Ne.symm hne), ih _ hd]
    rfl

/-- Each class that is there is closed once, with what its laws come to for the one generator. -/
theorem exists_closings_mapM_checkFor (hn : ds.Nodup) (hd : d ∈ ds) (hc : h.class? d = some cls) :
    ∃ t, closings g.id d ((ds.mapM (h.checkFor g c)).events s) =
      [(cls.laws.check g c).value t] := by
  induction ds generalizing s with
  | nil => exact absurd hd List.not_mem_nil
  | cons d' ds ih =>
    obtain ⟨hnot, hn⟩ := List.nodup_cons.1 hn
    rw [events_mapM_cons, closings_append]
    by_cases he : d' = d
    · subst he
      refine ⟨s, ?_⟩
      rw [closings_checkFor g c s hc, closings_mapM_checkFor_of_not_mem g c g.id _ hnot]
      rfl
    · rw [closings_checkFor_of_ne g c g.id s he, List.nil_append]
      exact ih _ hn ((List.mem_cons.1 hd).resolve_left (Ne.symm he))

theorem arrivals_mapM_checkFor (ds : List ClassId) :
    arrivals ((ds.mapM (h.checkFor g c)).events s) = 0 := by
  induction ds generalizing s with
  | nil => rfl
  | cons d ds ih =>
    rw [events_mapM_cons, arrivals_append, ih]
    cases hc : h.class? d with
    | none =>
      rw [checkFor_of_none hc]
      rfl
    | some cls =>
      rw [checkFor_of_class? hc, events_bind, arrivals_append, Class.arrivals_checkLaws]
      rfl

/-- The verdicts are those that show in the events. -/
theorem value_mapM_checkFor (hn : ds.Nodup) : (ds.mapM (h.checkFor g c)).value s =
    ds.map (h.finding g ((ds.mapM (h.checkFor g c)).events s)) := by
  induction ds generalizing s with
  | nil => rfl
  | cons d ds ih =>
    obtain ⟨hnot, hn⟩ := List.nodup_cons.1 hn
    rw [value_mapM_cons, events_mapM_cons, List.map_cons, ← value_checkFor, ih _ hn]
    refine congrArg _ (List.map_congr_left fun d' hd' => ?_)
    -- the first class is not among the others, so it does not count for them
    have hne : d ≠ d' := fun he => hnot (he ▸ hd')
    exact (finding_append_of_closings_eq_nil g (closings_checkFor_of_ne g c g.id s hne) _).symm

/-- The laws of those that are there are run in turn, with the one generator. -/
theorem runsLaws_mapM_checkFor (ds : List ClassId) :
    h.RunsLaws g c s (h.registered ds) ((ds.mapM (h.checkFor g c)).final s)
      ((ds.mapM (h.checkFor g c)).events s) := by
  induction ds generalizing s with
  | nil => exact .nil
  | cons d ds ih =>
    rw [events_mapM_cons, final_mapM_cons]
    cases hc : h.class? d with
    | none =>
      have hcons : h.registered (d :: ds) = h.registered ds :=
        List.filter_cons_of_neg (by rw [hc]; exact Bool.false_ne_true)
      rw [hcons, checkFor_of_none hc]
      exact ih s
    | some cls =>
      have hcons : h.registered (d :: ds) = d :: h.registered ds :=
        List.filter_cons_of_pos (by rw [hc]; rfl)
      have hrest := RunsLaws.cons hc (ih ((cls.laws.check g c).final s))
      rw [hcons, checkFor_of_class? hc, events_bind, final_bind, final_pure, events_pure,
        List.append_nil, Class.events_checkLaws, List.cons_append, List.append_assoc]
      exact hrest

/-! ### Classes that are not there -/

omit [Inspectable α] in
/-- A class that is there and was closed once comes to success exactly if it was closed with it. -/
theorem finding_eq_success_iff {es : List (Event α)} {v : Verdict} (hc : h.class? d = some cls)
    (hv : closings g.id d es = [v]) : h.finding g es d = .success ↔ v = .success := by
  unfold finding
  rw [hc, hv]
  exact Verdict.under_eq_success_iff

omit [Inspectable α] in
/-- A class with a parent is there, and so is the parent. -/
theorem Extends.lt_size {p : ClassId} (he : h.Extends d p) :
    d.index < h.size ∧ p.index < h.size := by
  have hd : d.index < h.size := by
    by_contra hnot
    rw [Extends, parentsOf, class?_eq_none_of_not_lt hnot] at he
    exact List.not_mem_nil he
  exact ⟨hd, Nat.lt_trans he.lt hd⟩

omit [Inspectable α] in
/-- Only a declared class can be on the agenda without being there. -/
theorem mem_agenda_iff_of_none {m : Membership} (hc : h.class? d = none) :
    d ∈ h.agenda m ↔ d ∈ m.classes := by
  rw [mem_agenda_iff]
  refine ⟨?_, fun hd => ⟨d, hd, .refl⟩⟩
  rintro ⟨id, hid, hdesc⟩
  rcases Relation.ReflTransGen.cases_tail hdesc with rfl | ⟨e, -, he⟩
  · exact hid
  · have hd := class?_isSome_iff.2 he.lt_size.2
    rw [hc] at hd
    cases hd

omit [Inspectable α] in
/-- What a class adds to the report is the line about an unknown class only if it is this class,
and is not there. -/
theorem report?_finding_eq_iff {es : List (Event α)} :
    (h.finding g es d').report? = some (ClassError.unknownClass d).message ↔
      d' = d ∧ h.class? d = none := by
  unfold finding
  cases hc : h.class? d' with
  | none =>
    rw [ClassError.fail_unknownClass]
    constructor
    · intro he
      have hd : d' = d := ClassError.unknownClass_message_inj.1 (Option.some_inj.1 he)
      exact ⟨hd, hd ▸ hc⟩
    · rintro ⟨rfl, -⟩
      rfl
  | some cls =>
    -- the report on a class that is there begins otherwise
    constructor
    · intro he
      obtain ⟨rest, hrest⟩ := exists_report_under_subjectHeading he
      exact absurd hrest (ClassError.unknownClass_message_ne d rest)
    · rintro ⟨rfl, hnone⟩
      rw [hc] at hnone
      cases hnone

omit [Inspectable α] in
/-- Among different classes, each that is not there adds its line once. -/
theorem count_unknownClass (hn : ds.Nodup) (es : List (Event α)) (d : ClassId) :
    ((ds.map (h.finding g es)).filterMap Verdict.report?).count
        (ClassError.unknownClass d).message =
      if d ∈ ds ∧ h.class? d = none then 1 else 0 := by
  have hadds : ∀ d' ∈ ds, ((h.finding g es d').report? ==
      some (ClassError.unknownClass d).message) = true ↔
        (d' == d && (h.class? d).isNone) = true := by
    intro d' _
    rw [beq_iff_eq, report?_finding_eq_iff, Bool.and_eq_true, beq_iff_eq, Option.isNone_iff_eq_none]
  rw [List.filterMap_map, List.count_filterMap]
  refine (List.countP_congr hadds).trans ?_
  cases hc : h.class? d with
  | none =>
    simp only [Option.isNone_none, Bool.and_true, and_true]
    exact hn.count
  | some cls => simp

end Hierarchy

/-! ### Direct validation -/

variable [Inspectable α]

/-- What it comes to that declared classes are checked with a generator: the verdict, the state that
is left behind, and the events. -/
structure Hierarchy.Covers (h : Hierarchy σ α) (m : Membership) (g : Generator σ α) (c : Config)
    (s : σ) (v : Verdict) (t : σ) (es : List (Event α)) : Prop where
  /-- The agenda holds each declared class and each transitive parent of one, once. -/
  nodup : (h.agenda m).Nodup
  mem_iff : ∀ d, d ∈ h.agenda m ↔ ∃ id ∈ m.classes, h.Descends id d
  /-- The laws of those that are there are checked once each, and no others. -/
  openings_eq : ∀ k d, openings k d es =
    if d ∈ h.registered (h.agenda m) ∧ g.id = k then [c.skip] else []
  /-- They are checked with the one generator, in the state reached by then. -/
  closings_eq : ∀ d cls, d ∈ h.agenda m → h.class? d = some cls →
    ∃ u, closings g.id d es = [(cls.laws.check g c).value u]
  /-- Their laws are run in turn, and nothing else is done to the host. -/
  runs_laws : h.RunsLaws g c s (h.registered (h.agenda m)) t es
  /-- No class is arrived at as in a request. -/
  arrivals_eq : arrivals es = 0
  /-- The report lists what the classes of the agenda come to, the later ones first. -/
  verdict_eq : v = Verdict.ofParts
    (((h.agenda m).map (h.finding g es)).filterMap Verdict.report?).reverse
  /-- There is one line for each declared class that is not there, and none for others. -/
  unknown_once : ∀ d, (((h.agenda m).map (h.finding g es)).filterMap Verdict.report?).reverse.count
    (ClassError.unknownClass d).message = if d ∈ m.classes ∧ h.class? d = none then 1 else 0
  success_iff : v = .success ↔
    (∀ d ∈ h.registered (h.agenda m), closings g.id d es = [.success]) ∧
      ∀ id ∈ m.classes, id.index < h.size

namespace Hierarchy

variable {h : Hierarchy σ α} {m : Membership}

/-- All classes of the agenda come to success exactly if those that are there were closed with
success and all declared classes are there. -/
theorem findings_eq_success_iff {g : Generator σ α} {c : Config} {es : List (Event α)}
    (hclose : ∀ d cls, d ∈ h.agenda m → h.class? d = some cls →
      ∃ u, closings g.id d es = [(cls.laws.check g c).value u]) :
    (∀ v ∈ (h.agenda m).map (h.finding g es), v = .success) ↔
      (∀ d ∈ h.registered (h.agenda m), closings g.id d es = [.success]) ∧
        ∀ id ∈ m.classes, id.index < h.size := by
  rw [List.forall_mem_map]
  constructor
  · intro hall
    constructor
    · intro d hd
      obtain ⟨hm, hlt⟩ := mem_registered_iff.1 hd
      obtain ⟨cls, hc⟩ := exists_class?_of_lt hlt
      obtain ⟨u, hu⟩ := hclose d cls hm hc
      rw [hu, (finding_eq_success_iff g hc hu).1 (hall d hm)]
    -- a declared class that is not there would be on the agenda and come to its failure
    · intro id hid
      by_contra hlt
      have hnone := class?_eq_none_of_not_lt hlt
      have hsucc := hall id ((mem_agenda_iff_of_none hnone).2 hid)
      rw [finding, hnone] at hsucc
      dsimp only at hsucc
      rw [ClassError.fail_unknownClass] at hsucc
      cases hsucc
  · rintro ⟨hchecks, hthere⟩ d hm
    cases hc : h.class? d with
    | none =>
      have hlt := hthere d ((mem_agenda_iff_of_none hc).1 hm)
      rw [← class?_isSome_iff, hc] at hlt
      cases hlt
    | some cls =>
      have hd := hchecks d (mem_registered_iff.2 ⟨hm, lt_size_of_class? hc⟩)
      exact (finding_eq_success_iff g hc hd).2 rfl

/-- To check what is on the agenda covers the declared classes. -/
theorem covers_agenda (h : Hierarchy σ α) (m : Membership) (g : Generator σ α) (c : Config)
    (s : σ) : h.Covers m g c s (Verdict.all (((h.agenda m).mapM (h.checkFor g c)).value s))
      (((h.agenda m).mapM (h.checkFor g c)).final s)
      (((h.agenda m).mapM (h.checkFor g c)).events s) := by
  have hn : (h.agenda m).Nodup := distinct_nodup _
  have hclose : ∀ d cls, d ∈ h.agenda m → h.class? d = some cls → ∃ u,
      closings g.id d (((h.agenda m).mapM (h.checkFor g c)).events s) =
        [(cls.laws.check g c).value u] :=
    fun d cls hd hc => exists_closings_mapM_checkFor g c s hn hd hc
  have hsolid := mem_value_mapM (h.solid_checkFor g c) (h.agenda m) s
  rw [value_mapM_checkFor g c s hn] at hsolid ⊢
  exact {
    nodup := hn
    mem_iff := fun d => mem_agenda_iff
    openings_eq := fun k d => openings_mapM_checkFor g c k s hn d
    closings_eq := hclose
    runs_laws := runsLaws_mapM_checkFor g c s (h.agenda m)
    arrivals_eq := arrivals_mapM_checkFor g c s _
    verdict_eq := Verdict.all_eq_ofParts hsolid
    unknown_once := by
      intro d
      rw [List.count_reverse, count_unknownClass g hn]
      refine if_congr (and_congr_left fun hc => ?_) rfl rfl
      exact mem_agenda_iff_of_none hc
    success_iff := Verdict.all_eq_success_iff.trans (findings_eq_success_iff hclose) }

end Hierarchy

/-- **Direct validation covers each class exactly once.**  In every hierarchy and for all declared
classes, which may come more than once and need not be there: where nothing is declared, it fails
and samples nothing.  Otherwise it checks the laws of each class that is declared or an ancestor of
a declared one, and is there, once, with the one generator of the subject; it reports each declared
class that is not there once; and it succeeds exactly if all those checks do and all declared
classes are there.  After any errands, it goes by the classes at the desk and not by the records
there, and it leaves the registry with its records and the declarations as they were. -/
theorem validateAll_covers (h : Hierarchy (World ω) α) (sub : Subject κ ω α) (k : GeneratorId)
    (m : Membership) (c : Config) (w : World ω) :
    (m.classes = [] → validateAll h sub k m c w =
      (Verdict.fail (InstanceError.noDeclaredClasses sub.name).message, w, [])) ∧
    (m.classes ≠ [] → h.Covers m (sub.generator k c).toGenerator c w
      ((validateAll h sub k m c).value w) ((validateAll h sub k m c).final w)
      ((validateAll h sub k m c).events w)) ∧
    (∀ [DecidableEq κ] (errands : List (Errand κ ω α)) (w₀ : World ω),
      let before := Errand.runEach .empty errands
      let desk := (before.value w₀).2
      let direct := validateAll desk.registry.hierarchy sub k m c
      Errand.runEach .empty (errands ++ [.validateAll sub k m c]) w₀ =
        (((before.value w₀).1 ++ [.judged (direct.value (before.final w₀))], desk),
          direct.final (before.final w₀),
          before.events w₀ ++ direct.events (before.final w₀))) := by
  refine ⟨fun hnil => ?_, fun hne => ?_, fun errands w₀ => ?_⟩
  · rw [validateAll_of_nil h sub k hnil]
    rfl
  · rw [validateAll_of_ne_nil h sub k hne, value_bind, final_bind, events_bind, value_pure,
      final_pure, events_pure, List.append_nil]
    exact h.covers_agenda m _ c w
  · exact Errand.runEach_validateAll errands sub k m c w₀

namespace Lengths

/-- One class and one of its ancestors are declared, and twice a class that is not there. -/
def overlapping : Membership := ⟨[⟨3⟩, ⟨9⟩, ⟨1⟩, ⟨9⟩], false⟩

/-- The common ancestor is checked once, and validation fails for the class that is not there. -/
theorem overlapping_covered : overlapping.classes ≠ [] ∧
    openings ⟨1⟩ ⟨0⟩ ((validateAll (Desk.after requests world).registry.hierarchy lengths ⟨1⟩
      overlapping config).events world) = [false] ∧
    (validateAll (Desk.after requests world).registry.hierarchy lengths ⟨1⟩ overlapping
      config).value world ≠ .success := by
  have hne : overlapping.classes ≠ [] := by decide
  have hcovers := (validateAll_covers (Desk.after requests world).registry.hierarchy lengths ⟨1⟩
    overlapping config world).2.1 hne
  refine ⟨hne, ?_, fun hs => ?_⟩
  · rw [hcovers.openings_eq, if_pos]
    · rfl
    · decide +kernel
  · have hthere := (hcovers.success_iff.1 hs).2 ⟨9⟩ (by decide)
    revert hthere
    decide +kernel

end Lengths

end Lawbook
