/-
Lawbook/Proofs/Shown.lean

What a report shows: the texts that it contains.

Reports are joined, put under headings and trimmed at the end.  A text with no blanks at its own end
is still in the report after all of this (`Verdict.Shows.both_left`, `Verdict.Shows.both_right`,
`Verdict.Shows.under`, `Verdict.shows_all`).

A class whose own laws are broken puts its own block into the report: the heading of its laws, and
what the laws had to say (`ownBlock`).  By induction on the bound, a visit shows the block of each
class whose laws it found to be broken (`visit_shows`), and so does a whole request
(`Validation.shows`).  This holds for the request that checks the laws; what a later request on a
record shows is another matter.
-/
import Lawbook.Proofs.Validations

namespace Lawbook

open Event

variable {σ ε α β : Type}

/-! ### Texts inside texts -/

namespace Text

/-- What has no blanks at its end is not cut by trimming. -/
theorem infix_trimmedEnd {bs cs : List Char} (hb : trimmedEnd bs = bs) (hi : bs <:+: cs) :
    bs <:+: trimmedEnd cs := by
  obtain ⟨as, ds, rfl⟩ := hi
  rw [trimmedEnd_append]
  split
  · rw [trimmedEnd_append, hb]
    split
    · next hnil =>
      rw [hnil]
      exact List.nil_infix
    · exact (List.suffix_append as bs).isInfix
  · exact ⟨as, trimmedEnd ds, rfl⟩

/-- A part that does not end with blanks survives the trimming of the text around it. -/
theorem infix_trimEnd {part s : String} (hp : trimEnd part = part)
    (hi : part.toList <:+: s.toList) : part.toList <:+: (trimEnd s).toList := by
  have hcut := congrArg String.toList hp
  rw [trimEnd, String.toList_ofList] at hcut ⊢
  exact infix_trimmedEnd hcut hi

/-- Two texts are blank together exactly if each is. -/
theorem isBlankText_append (s t : String) :
    isBlankText (s ++ t) = (isBlankText s && isBlankText t) := by
  rw [isBlankText, String.toList_append, List.all_append]
  rfl

end Text

namespace Verdict

open Text

/-- A verdict is a failure whose report contains a text. -/
def Shows (part : String) (v : Verdict) : Prop :=
  ∃ report, v = failure report ∧ part.toList <:+: report.toList

variable {part : String} {v w : Verdict} {vs : List Verdict}

theorem fail_eq_failure {message : String} (hm : isBlankText message = false) :
    fail message = failure (trimEnd message) := by
  rw [fail, hm]
  rfl

/-- A failure shows its message, less the blanks at the end. -/
theorem shows_fail (message : String) : (fail message).Shows (trimEnd message) := by
  cases hm : isBlankText message with
  | false =>
    exact ⟨_, fail_eq_failure hm, List.infix_refl _⟩
  | true =>
    have hnil : trimmedEnd message.toList = [] :=
      (trimmedEnd_eq_nil_iff _).2 (List.all_eq_true.1 hm)
    rw [fail, hm, trimEnd, hnil]
    exact ⟨_, rfl, List.nil_infix⟩

/-- What the earlier report shows, the joined report shows. -/
theorem infix_joinReports_left (hp : trimEnd part = part) {earlier : String} (later : String)
    (hi : part.toList <:+: earlier.toList) :
    part.toList <:+: (joinReports earlier later).toList := by
  refine infix_trimEnd hp (hi.trans ?_)
  rw [String.toList_append]
  exact (List.suffix_append _ _).isInfix

/-- What the later report shows, the joined report shows. -/
theorem infix_joinReports_right (hp : trimEnd part = part) (earlier : String) {later : String}
    (hi : part.toList <:+: later.toList) :
    part.toList <:+: (joinReports earlier later).toList := by
  refine infix_trimEnd hp (hi.trans ?_)
  rw [String.toList_append, String.toList_append, List.append_assoc]
  exact (List.prefix_append _ _).isInfix

theorem Shows.both_left (hp : trimEnd part = part) (hv : v.Shows part) (w : Verdict) :
    (v.both w).Shows part := by
  obtain ⟨earlier, rfl, hi⟩ := hv
  cases w with
  | success => exact ⟨earlier, rfl, hi⟩
  | failure later => exact ⟨_, rfl, infix_joinReports_left hp later hi⟩

theorem Shows.both_right (hp : trimEnd part = part) (v : Verdict) (hw : w.Shows part) :
    (v.both w).Shows part := by
  obtain ⟨later, rfl, hi⟩ := hw
  cases v with
  | success => exact ⟨later, rfl, hi⟩
  | failure earlier => exact ⟨_, rfl, infix_joinReports_right hp earlier hi⟩

/-- A heading is put over all that a report shows. -/
theorem Shows.under (hp : trimEnd part = part) (hv : v.Shows part) (heading : String) :
    (v.under heading).Shows part := by
  obtain ⟨report, rfl, hi⟩ := hv
  exact Shows.both_left hp ⟨report, rfl, hi⟩ (fail heading)

/-- AND over a list shows what any of its members shows. -/
theorem shows_foldl_both (hp : trimEnd part = part)
    (hs : v.Shows part ∨ ∃ w ∈ vs, w.Shows part) : (vs.foldl both v).Shows part := by
  induction vs generalizing v with
  | nil =>
    rcases hs with hv | ⟨w, hw, -⟩
    · exact hv
    · exact absurd hw List.not_mem_nil
  | cons u vs ih =>
    refine ih ?_
    rcases hs with hv | ⟨w, hw, hs⟩
    · exact .inl (hv.both_left hp u)
    · rcases List.mem_cons.1 hw with rfl | hw
      · exact .inl (hs.both_right hp v)
      · exact .inr ⟨w, hw, hs⟩

/-- All verdicts together show what each of them shows. -/
theorem shows_all (hp : trimEnd part = part) (hv : v ∈ vs) (hs : v.Shows part) :
    (all vs).Shows part :=
  shows_foldl_both hp (.inr ⟨v, hv, hs⟩)

end Verdict

/-! ### The block of a class -/

namespace Hierarchy

open Text

/-- What a class reports about its own laws when they are broken: the heading, and what the laws
had to say. -/
def ownBlock (generator name lawsReport : String) : String :=
  Verdict.joinReports lawsReport (trimEnd (ownHeading generator name))

variable {generator name part : String} {inherited : List Verdict} {v : Verdict}

theorem trimEnd_ownBlock (generator name lawsReport : String) :
    trimEnd (ownBlock generator name lawsReport) = ownBlock generator name lawsReport :=
  trimEnd_trimEnd _

theorem isBlankText_ownHeading (generator name : String) :
    isBlankText (ownHeading generator name) = false := by
  have hfixed : isBlankText " does not obey the laws of " = false := by decide
  show isBlankText (generator ++ " does not obey the laws of " ++ name) = false
  rw [isBlankText_append, isBlankText_append, hfixed, Bool.and_false, Bool.false_and]

/-- The report of a class on its own laws is its own block, heading and all. -/
theorem under_ownHeading (generator name lawsReport : String) :
    (Verdict.failure lawsReport).under (ownHeading generator name) =
      .failure (ownBlock generator name lawsReport) := by
  show (Verdict.failure lawsReport).both (.fail (ownHeading generator name)) = _
  rw [Verdict.fail_eq_failure (isBlankText_ownHeading generator name)]
  rfl

/-- A class shows its own block if its own laws are broken. -/
theorem joined_shows_own (inherited : List Verdict) (lawsReport : String) :
    (joined generator name inherited (.failure lawsReport)).Shows
      (ownBlock generator name lawsReport) := by
  refine Verdict.Shows.both_right (trimEnd_ownBlock ..) _ ?_
  exact ⟨_, under_ownHeading generator name lawsReport, List.infix_refl _⟩

/-- A class shows what the verdicts taken over from its parents show. -/
theorem joined_shows_inherited (hp : trimEnd part = part) (hv : v ∈ inherited)
    (hs : v.Shows part) (own : Verdict) : (joined generator name inherited own).Shows part :=
  ((Verdict.shows_all hp hv hs).under hp _).both_left hp _

end Hierarchy

/-! ### Visits -/

/-- What is reported in a run over a list is reported for one of the members. -/
theorem Run.exists_of_mem_events_mapM {f : β → Run σ ε α} {xs : List β} {e : ε} {s : σ}
    (he : e ∈ (xs.mapM f).events s) :
    ∃ x ∈ xs, ∃ t, e ∈ (f x).events t ∧ (f x).value t ∈ (xs.mapM f).value s := by
  induction xs generalizing s with
  | nil => exact absurd he List.not_mem_nil
  | cons x xs ih =>
    rw [Run.events_mapM_cons] at he
    rw [Run.value_mapM_cons]
    rcases List.mem_append.1 he with he | he
    · exact ⟨x, List.mem_cons_self, s, he, List.mem_cons_self⟩
    · obtain ⟨y, hy, t, het, hvt⟩ := ih he
      exact ⟨y, List.mem_cons_of_mem x hy, t, het, List.mem_cons_of_mem _ hvt⟩

variable [Inspectable α]

namespace Hierarchy

variable {h : Hierarchy σ α} {g : Generator σ α} {c : Config} {d : ClassId} {k : GeneratorId}
variable {report : String}

/-- **A visit shows the block of each class whose laws it finds to be broken**, under the names of
the handle and of the class. -/
theorem visit_shows : ∀ (n : Nat) (id : ClassId) (s : Survey σ),
    closed d k (.failure report) ∈ (h.visit g c n id).events s →
      g.id = k ∧ ∃ cls, h.class? d = some cls ∧
        ((h.visit g c n id).value s).Shows (ownBlock g.name cls.name report) := by
  intro n
  induction n with
  | zero => exact fun id s he => absurd he List.not_mem_nil
  | succ n ih =>
    intro id s he
    cases hc : h.class? id with
    | none =>
      rw [Run.events, visit_unknown hc] at he
      simp at he
    | some cls =>
      cases hv : s.ledger.verdict? g.id id with
      | some w =>
        rw [Run.events, visit_known hc hv] at he
        simp at he
      | none =>
        rw [Run.events, visit_fresh hc hv] at he
        rw [Run.value, visit_fresh hc hv]
        have he' := (List.mem_cons.1 he).resolve_left (by simp)
        rcases List.mem_append.1 he' with habove | hown
        · -- a parent shows the block, and the class shows what its parents show
          obtain ⟨p, -, t, het, hvt⟩ := Run.exists_of_mem_events_mapM habove
          obtain ⟨hk, cls', hc', hs⟩ := ih p t het
          exact ⟨hk, cls', hc', joined_shows_inherited (trimEnd_ownBlock ..) hvt hs _⟩
        · rw [← mem_closings_iff, Class.closings_checkLaws] at hown
          split at hown
          · next heq =>
            refine ⟨heq.2, cls, heq.1 ▸ hc, ?_⟩
            rw [Class.value_checkLaws, ← List.mem_singleton.1 hown]
            exact joined_shows_own _ report
          · exact absurd hown List.not_mem_nil

end Hierarchy

/-- A request shows the block of each class whose laws it finds to be broken. -/
theorem Validation.shows {x : Validation σ α} {d : ClassId} {k : GeneratorId} {report : String}
    (he : closed d k (.failure report) ∈ x.events) :
    x.generator.id = k ∧ ∃ cls, x.registry.hierarchy.class? d = some cls ∧
      x.verdict.Shows (Hierarchy.ownBlock x.generator.name cls.name report) := by
  rw [events, Run.events, Registry.validate_eq] at he
  rcases List.mem_append.1 he with he | he
  · exact Hierarchy.visit_shows _ _ _ he
  · cases List.mem_singleton.1 he

end Lawbook
