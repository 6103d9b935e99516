/-
Lawbook/Proofs/Parts.lean

Parts: reports as lists of texts with one blank line between.

A text is solid when it ends in a character that is no blank.  Trimming at the end leaves a solid
text alone, so where the texts that are joined are solid, no join cuts anything off.  Each failure
that the library makes is solid, because messages are trimmed and headings are never blank
(`Verdict.solid_fail`, `Verdict.Solid.both`, `Verdict.solid_under`).

`Verdict.ofParts` is the verdict that reports given parts, and nothing wrong where there are none.
On such verdicts AND is concatenation with the later parts in front (`Verdict.both_ofParts`), and so
the two folds have closed forms: the failures in reverse order (`Verdict.all_map_ofParts`), and the
same with one more line at the end where no alternative holds (`Verdict.any_map_ofParts`).  A
heading is one more part in front (`Verdict.under_ofParts`).
-/
import Lawbook.Proofs.Shown
import Mathlib.Data.List.DropRight

namespace Lawbook

variable {β γ : Type}

/-! ### Solid texts -/

namespace Text

/-- A text that ends in a character that is no blank. -/
def Solid (s : String) : Prop :=
  ∃ cs c, s.toList = cs ++ [c] ∧ isBlank c = false

variable {s t : String}

/-- Trimming leaves a solid text alone. -/
theorem Solid.trimEnd_eq (hs : Solid s) : trimEnd s = s := by
  obtain ⟨cs, c, he, hc⟩ := hs
  rw [trimEnd, he, trimmedEnd_concat_of_not_blank hc, ← he, String.ofList_toList]

/-- A solid text is not blank: its last character is there. -/
theorem Solid.isBlankText_eq (hs : Solid s) : isBlankText s = false := by
  obtain ⟨cs, c, he, hc⟩ := hs
  have hm : c ∈ s.toList := by
    rw [he]
    exact List.mem_append_right _ (List.mem_singleton.2 rfl)
  rw [isBlankText, List.all_eq_false]
  exact ⟨c, hm, by simp [hc]⟩

/-- What is put in front of a solid text does not matter. -/
theorem Solid.append_left (ht : Solid t) (s : String) : Solid (s ++ t) := by
  obtain ⟨cs, c, he, hc⟩ := ht
  refine ⟨s.toList ++ cs, c, ?_, hc⟩
  rw [String.toList_append, he, List.append_assoc]

/-- What is left of a text after trimming is solid, unless nothing is. -/
theorem solid_trimEnd (hs : isBlankText s = false) : Solid (trimEnd s) := by
  have hne : s.toList.rdropWhile isBlank ≠ [] := by
    intro hnil
    have hall : isBlankText s = true := List.all_eq_true.2 (List.rdropWhile_eq_nil_iff.1 hnil)
    rw [hs] at hall
    cases hall
  have hcut : (trimEnd s).toList = s.toList.rdropWhile isBlank := String.toList_ofList
  have hlast := List.rdropWhile_last_not isBlank s.toList hne
  exact ⟨_, _, hcut.trans (List.dropLast_append_getLast hne).symm, Bool.eq_false_iff.2 hlast⟩

/-- Solid texts with one blank line between are solid together. -/
theorem solid_intercalate {parts : List String} (hne : parts ≠ []) (hp : ∀ p ∈ parts, Solid p) :
    Solid ("\n\n".intercalate parts) := by
  induction parts with
  | nil => exact absurd rfl hne
  | cons part parts ih =>
    obtain ⟨hpart, hparts⟩ := List.forall_mem_cons.1 hp
    by_cases hnil : parts = []
    · rw [hnil, String.intercalate_singleton]
      exact hpart
    · rw [String.intercalate_cons_of_ne_nil hnil]
      exact (ih hnil hparts).append_left _

end Text

/-! ### Solid verdicts -/

namespace Verdict

open Text

/-- A failure of which the report is solid, or no failure. -/
def Solid (v : Verdict) : Prop :=
  ∀ report, v = failure report → Text.Solid report

variable {v w : Verdict} {vs : List Verdict}

theorem solid_success : Solid success := by
  intro report hr
  cases hr

/-- A failure can be joined with others without a change exactly if its report is solid. -/
theorem solid_failure {report : String} : (failure report).Solid ↔ Text.Solid report := by
  constructor
  · intro hs
    exact hs report rfl
  · rintro hs _ ⟨⟩
    exact hs

/-- Whatever the message is, a failure is solid. -/
theorem solid_fail (message : String) : (fail message).Solid := by
  cases hm : isBlankText message with
  | false =>
    rw [fail_eq_failure hm]
    exact solid_failure.2 (solid_trimEnd hm)
  | true =>
    rw [fail, hm]
    exact solid_failure.2 ⟨"Unspecified failur".toList, 'e', by decide, by decide⟩

/-- Two reports are joined without a cut. -/
theorem joinReports_eq {earlier : String} (he : Text.Solid earlier) (later : String) :
    joinReports earlier later = later ++ "\n\n" ++ earlier :=
  (he.append_left _).trimEnd_eq

/-- AND keeps verdicts solid: the earlier report stays at the end. -/
theorem Solid.both (hv : v.Solid) (hw : w.Solid) : (v.both w).Solid := by
  cases v with
  | success => rwa [success_both]
  | failure a =>
    cases w with
    | success => exact hv
    | failure b =>
      have ha : Text.Solid a := solid_failure.1 hv
      show (failure (joinReports a b)).Solid
      rw [joinReports_eq ha]
      exact solid_failure.2 (ha.append_left _)

theorem Solid.foldl_both (hv : v.Solid) (hvs : ∀ w ∈ vs, w.Solid) :
    (vs.foldl Verdict.both v).Solid := by
  induction vs generalizing v with
  | nil => exact hv
  | cons w vs ih =>
    obtain ⟨hw, hvs⟩ := List.forall_mem_cons.1 hvs
    exact ih (hv.both hw) hvs

/-- AND over a list of solid verdicts is solid. -/
theorem solid_all (hvs : ∀ w ∈ vs, w.Solid) : (all vs).Solid :=
  solid_success.foldl_both hvs

/-- Under a heading that says something, every report is solid. -/
theorem solid_under {heading : String} (hh : isBlankText heading = false) (v : Verdict) :
    (v.under heading).Solid := by
  cases v with
  | success => exact solid_success
  | failure report =>
    show ((failure report).both (fail heading)).Solid
    rw [fail_eq_failure hh]
    refine solid_failure.2 (solid_trimEnd ?_)
    rw [isBlankText_append, isBlankText_append, (solid_trimEnd hh).isBlankText_eq]
    rfl

/-! ### Verdicts made of parts -/

/-- The verdict that reports parts, with one blank line between; without parts, nothing is wrong. -/
def ofParts : List String → Verdict
  | [] => success
  | part :: parts => failure ("\n\n".intercalate (part :: parts))

variable {parts parts' : List String} {lists : List (List String)}

/-- Where there are parts, they are reported. -/
theorem ofParts_of_ne_nil (hne : parts ≠ []) :
    ofParts parts = failure ("\n\n".intercalate parts) := by
  cases parts with
  | nil => exact absurd rfl hne
  | cons part parts => rfl

theorem ofParts_singleton (part : String) : ofParts [part] = failure part := by
  rw [ofParts, String.intercalate_singleton]

/-- Nothing is wrong exactly if there is no part. -/
theorem ofParts_eq_success_iff : ofParts parts = success ↔ parts = [] := by
  cases parts with
  | nil => simp [ofParts]
  | cons part parts => simp [ofParts]

/-- **AND is concatenation**, with the later parts in front. -/
theorem both_ofParts (hp : ∀ p ∈ parts, Text.Solid p) (parts' : List String) :
    (ofParts parts).both (ofParts parts') = ofParts (parts' ++ parts) := by
  by_cases hne : parts = []
  · rw [hne, List.append_nil]
    exact success_both _
  · by_cases hne' : parts' = []
    · rw [hne', List.nil_append]
      exact both_success _
    · have happ : parts' ++ parts ≠ [] := List.append_ne_nil_of_right_ne_nil _ hne
      rw [ofParts_of_ne_nil hne, ofParts_of_ne_nil hne', ofParts_of_ne_nil happ,
        String.intercalate_append_of_ne_nil hne' hne]
      show failure (joinReports _ _) = _
      rw [joinReports_eq (solid_intercalate hne hp)]

/-- AND over a list, from any parts on: the form in which the induction goes through. -/
theorem foldl_both_ofParts (hp : ∀ p ∈ parts, Text.Solid p)
    (hl : ∀ list ∈ lists, ∀ p ∈ list, Text.Solid p) :
    (lists.map ofParts).foldl both (ofParts parts) = ofParts (lists.reverse.flatten ++ parts) := by
  induction lists generalizing parts with
  | nil => rfl
  | cons list lists ih =>
    obtain ⟨hlist, hlists⟩ := List.forall_mem_cons.1 hl
    have hboth : ∀ p ∈ list ++ parts, Text.Solid p := List.forall_mem_append.2 ⟨hlist, hp⟩
    rw [List.map_cons, List.foldl_cons, both_ofParts hp, ih hboth hlists]
    simp

/-- **The closed form of AND over a list**: the later reports come first. -/
theorem all_map_ofParts (hl : ∀ list ∈ lists, ∀ p ∈ list, Text.Solid p) :
    all (lists.map ofParts) = ofParts lists.reverse.flatten := by
  have hfold := foldl_both_ofParts (List.forall_mem_nil Text.Solid) hl
  rwa [List.append_nil] at hfold

/-- Where both sides fail, OR has the same to say as AND. -/
theorem either_eq_both (hv : v ≠ success) (hw : w ≠ success) : v.either w = v.both w := by
  cases v with
  | success => exact absurd rfl hv
  | failure a =>
    cases w with
    | success => exact absurd rfl hw
    | failure b => rfl

/-- OR over a list of failures is AND over it, which has a closed form. -/
theorem foldl_either_eq_foldl_both (hv : v ≠ success) (hvs : ∀ w ∈ vs, w ≠ success) :
    vs.foldl either v = vs.foldl both v := by
  induction vs generalizing v with
  | nil => rfl
  | cons w vs ih =>
    obtain ⟨hw, hvs⟩ := List.forall_mem_cons.1 hvs
    have hboth : v.both w ≠ success := fun hs => hv (both_eq_success_iff.1 hs).1
    rw [List.foldl_cons, List.foldl_cons, either_eq_both hv hw, ih hboth hvs]

theorem fail_noAlternative : fail noAlternative = ofParts [noAlternative] := by
  rw [ofParts_singleton]
  decide

/-- What an empty choice reports can be joined without a change. -/
theorem solid_noAlternative : Text.Solid noAlternative := by
  have hs := solid_fail noAlternative
  rw [fail_noAlternative, ofParts_singleton] at hs
  exact solid_failure.1 hs

/-- **The closed form of OR over a list**: nothing if one of the lists is empty, and otherwise the
later reports first, and that no alternative held last. -/
theorem any_map_ofParts (hl : ∀ list ∈ lists, ∀ p ∈ list, Text.Solid p) :
    any (lists.map ofParts) =
      if [] ∈ lists then success else ofParts (lists.reverse.flatten ++ [noAlternative]) := by
  split
  · next hm => exact any_eq_success_iff.2 (List.mem_map.2 ⟨[], hm, rfl⟩)
  · next hm =>
    have hseed : fail noAlternative ≠ success := by decide
    have hfails : ∀ w ∈ lists.map ofParts, w ≠ success := by
      intro w hw
      obtain ⟨list, hlist, rfl⟩ := List.mem_map.1 hw
      rw [Ne, ofParts_eq_success_iff]
      rintro rfl
      exact hm hlist
    have hlast : ∀ p ∈ [noAlternative], Text.Solid p :=
      List.forall_mem_singleton.2 solid_noAlternative
    rw [any, foldl_either_eq_foldl_both hseed hfails, fail_noAlternative,
      foldl_both_ofParts hlast hl]

/-! ### Verdicts as parts -/

/-- A verdict is made of its report, or of nothing. -/
theorem ofParts_report? (v : Verdict) : ofParts v.report?.toList = v := by
  cases v with
  | success => rfl
  | failure report => exact ofParts_singleton report

/-- Verdicts are made of lists of parts, with one part or none in each. -/
theorem map_ofParts_report? (vs : List Verdict) :
    (vs.map fun v => v.report?.toList).map ofParts = vs := by
  rw [List.map_map]
  refine (List.map_congr_left fun v _ => ?_).trans (List.map_id vs)
  exact ofParts_report? v

/-- The parts of solid verdicts are solid. -/
theorem solid_reports (hvs : ∀ v ∈ vs, v.Solid) :
    ∀ list ∈ vs.map (fun v => v.report?.toList), ∀ p ∈ list, Text.Solid p := by
  intro list hlist p hp
  obtain ⟨v, hv, rfl⟩ := List.mem_map.1 hlist
  cases v with
  | success => exact absurd hp List.not_mem_nil
  | failure report =>
    obtain rfl := List.mem_singleton.1 hp
    exact solid_failure.1 (hvs _ hv)

/-- The parts of several verdicts, the later ones first, are the reports of the failures among them.
-/
theorem flatten_reverse_reports (vs : List Verdict) :
    (vs.map fun v => v.report?.toList).reverse.flatten = (vs.filterMap report?).reverse := by
  induction vs with
  | nil => rfl
  | cons v vs ih =>
    rw [List.map_cons, List.reverse_cons, List.flatten_append, ih, List.filterMap_cons]
    cases v <;> simp [report?]

theorem solid_of_mem_reports (hvs : ∀ v ∈ vs, v.Solid) :
    ∀ report ∈ (vs.filterMap report?).reverse, Text.Solid report := by
  intro report hr
  rw [← flatten_reverse_reports] at hr
  obtain ⟨list, hlist, hm⟩ := List.mem_flatten.1 hr
  exact solid_reports hvs list (List.mem_reverse.1 hlist) report hm

/-- All reports of failures, the later ones first. -/
theorem all_eq_ofParts (hvs : ∀ v ∈ vs, v.Solid) :
    all vs = ofParts (vs.filterMap report?).reverse := by
  have hall := all_map_ofParts (solid_reports hvs)
  rwa [map_ofParts_report?, flatten_reverse_reports] at hall

/-- All reports where every alternative fails, the later ones first, and a last line. -/
theorem any_eq_ofParts (hvs : ∀ v ∈ vs, v.Solid) :
    any vs = if success ∈ vs then success
      else ofParts ((vs.filterMap report?).reverse ++ [noAlternative]) := by
  have hany := any_map_ofParts (solid_reports hvs)
  have hm : [] ∈ vs.map (fun v => v.report?.toList) ↔ success ∈ vs := by
    rw [List.mem_map]
    constructor
    · rintro ⟨v, hv, hnil⟩
      cases v with
      | success => exact hv
      | failure report => cases hnil
    · intro hs
      exact ⟨success, hs, rfl⟩
  rw [map_ofParts_report?, flatten_reverse_reports] at hany
  simpa only [hm] using hany

end Verdict

/-! ### Headings -/

/-- A list under a heading, if it holds anything. -/
def headed (heading : β) : List β → List β
  | [] => []
  | x :: xs => heading :: x :: xs

section Headed

variable {heading x : β} {xs : List β}

theorem headed_of_ne_nil (hne : xs ≠ []) : headed heading xs = heading :: xs := by
  cases xs with
  | nil => exact absurd rfl hne
  | cons x xs => rfl

/-- A heading is put over something only, so nothing stays nothing. -/
theorem headed_eq_nil_iff : headed heading xs = [] ↔ xs = [] := by
  cases xs <;> simp [headed]

/-- To map a list under a heading is to map both. -/
theorem map_headed (f : β → γ) : (headed heading xs).map f = headed (f heading) (xs.map f) := by
  cases xs <;> rfl

theorem Verdict.report?_ofParts_headed (heading : String) (parts : List String) :
    (Verdict.ofParts (headed heading parts)).report? =
      if parts.isEmpty then none else some ("\n\n".intercalate (heading :: parts)) := by
  cases parts <;> rfl

/-- Under a heading is what was there, and the heading. -/
theorem mem_of_mem_headed (hx : x ∈ headed heading xs) : x = heading ∨ x ∈ xs := by
  cases xs with
  | nil => exact absurd hx List.not_mem_nil
  | cons y ys => exact List.mem_cons.1 hx

end Headed

/-- A heading is one more part in front. -/
theorem Verdict.under_ofParts {heading : String} (hh : Text.isBlankText heading = false)
    {parts : List String} (hp : ∀ p ∈ parts, Text.Solid p) :
    (ofParts parts).under heading = ofParts (headed (Text.trimEnd heading) parts) := by
  by_cases hne : parts = []
  · rw [hne]
    rfl
  · have hheading : fail heading = ofParts [Text.trimEnd heading] := by
      rw [fail_eq_failure hh, ofParts_singleton]
    rw [headed_of_ne_nil hne, ofParts_of_ne_nil hne]
    show (failure _).both (fail heading) = _
    rw [← ofParts_of_ne_nil hne, hheading, both_ofParts hp]
    rfl

end Lawbook
