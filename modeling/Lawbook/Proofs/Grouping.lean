/-
Lawbook/Proofs/Grouping.lean

Grouping: what it changes to join three verdicts from the left or from the right.

A join puts two reports together and trims the result at its end.  Both groupings put the reports in
the same order, the last one first; they differ in what they trim.  From the left, the first report
is at the end of each join, and only its own blanks are cut.  From the right, the second report is
at the end of the inner join, so that its blanks are cut as well, and these are still there from the
left.  Only if the first report says nothing does each join from the left cut as far as that.

So grouping matters exactly where the first report says something and the second one ends in blanks
(`joinReports_assoc_iff`).  Solid reports do not end in blanks, and all that the library makes is
solid; on solid verdicts AND is a monoid, and OR is a semigroup in which success absorbs
(`solidLaws`).

Main result: `Verdict.joins_group_exactly`.
-/
import Lawbook.Proofs.Parts

namespace Lawbook

/-! ### Trimming what is put together -/

namespace Text

variable {s t : String}

/-- Blanks at the end are cut, and so are those in front of them. -/
theorem trimEnd_append_of_blank (s : String) (ht : isBlankText t = true) :
    trimEnd (s ++ t) = trimEnd s := by
  have hnil : trimmedEnd t.toList = [] := (trimmedEnd_eq_nil_iff _).2 (List.all_eq_true.1 ht)
  rw [trimEnd, String.toList_append, trimmedEnd_append, if_pos hnil, trimEnd]

/-- Where the end says something, nothing in front of it is cut. -/
theorem trimEnd_append_of_not_blank (s : String) (ht : isBlankText t = false) :
    trimEnd (s ++ t) = s ++ trimEnd t := by
  have hne : trimmedEnd t.toList ≠ [] := by
    intro hnil
    have hall : isBlankText t = true := List.all_eq_true.2 ((trimmedEnd_eq_nil_iff _).1 hnil)
    rw [ht] at hall
    cases hall
  rw [trimEnd, String.toList_append, trimmedEnd_append, if_neg hne, String.ofList_append,
    String.ofList_toList, trimEnd]

/-- It does not matter whether a text is trimmed before it is put at the end. -/
theorem trimEnd_append_trimEnd (s t : String) : trimEnd (s ++ trimEnd t) = trimEnd (s ++ t) := by
  cases ht : isBlankText t with
  | true =>
    have hempty : trimEnd t = "" := by
      have hcut := trimEnd_append_of_blank "" ht
      rwa [String.empty_append] at hcut
    rw [hempty, String.append_empty, trimEnd_append_of_blank s ht]
  | false =>
    have hsolid := solid_trimEnd ht
    rw [trimEnd_append_of_not_blank s ht, (hsolid.append_left s).trimEnd_eq]

theorem solid_iff_getLast? : Solid s ↔ ∃ c, s.toList.getLast? = some c ∧ isBlank c = false := by
  constructor
  · rintro ⟨cs, c, he, hc⟩
    exact ⟨c, List.getLast?_eq_some_iff.2 ⟨cs, he⟩, hc⟩
  · rintro ⟨c, hl, hc⟩
    obtain ⟨cs, he⟩ := List.getLast?_eq_some_iff.1 hl
    exact ⟨cs, c, he, hc⟩

/-- Trimming leaves alone what is solid, and besides only the empty text. -/
theorem trimEnd_eq_self_iff (hs : s ≠ "") : trimEnd s = s ↔ Solid s := by
  refine ⟨fun he => ?_, Solid.trimEnd_eq⟩
  cases hb : isBlankText s with
  | false => exact he ▸ solid_trimEnd hb
  | true =>
    have hcut := trimEnd_append_of_blank "" hb
    rw [String.empty_append, he] at hcut
    exact absurd hcut hs

/-- Behind a blank line, a text is solid exactly if it is solid by itself. -/
theorem solid_line_append_iff : Solid (s ++ "\n\n" ++ t) ↔ Solid t := by
  refine ⟨fun hs => ?_, fun ht => ht.append_left _⟩
  rw [solid_iff_getLast?, String.toList_append, String.toList_append, List.getLast?_append] at hs
  rw [solid_iff_getLast?]
  obtain ⟨c, hc, hb⟩ := hs
  cases ht : t.toList.getLast? with
  | some d =>
    rw [ht] at hc
    exact ⟨c, hc, hb⟩
  | none =>
    -- the end of the blank line is a blank
    rw [ht, List.getLast?_append] at hc
    cases hc
    exact absurd hb (by decide)

end Text

namespace Verdict

open Text

variable {a b c : String} {u v w : Verdict} {vs : List Verdict}

/-! ### Three reports -/

/-- If the earlier report says nothing, what is left is the later one. -/
theorem joinReports_of_blank (ha : isBlankText a = true) (b : String) :
    joinReports a b = trimEnd b := by
  have hline : isBlankText "\n\n" = true := by decide
  rw [joinReports, trimEnd_append_of_blank _ ha, trimEnd_append_of_blank b hline]

/-- If the earlier report says something, the later one is kept with all its blanks. -/
theorem joinReports_of_not_blank (ha : isBlankText a = false) (b : String) :
    joinReports a b = b ++ "\n\n" ++ trimEnd a :=
  trimEnd_append_of_not_blank _ ha

/-- **Grouping matters exactly where it can cut something off**: where the first report says
something and the second one does not end in what it says. -/
theorem joinReports_assoc_iff :
    joinReports (joinReports a b) c = joinReports a (joinReports b c) ↔
      isBlankText a = true ∨ Text.Solid b := by
  cases ha : isBlankText a with
  | true =>
    have htrim : trimEnd (joinReports b c) = joinReports b c := trimEnd_trimEnd _
    have hleft : joinReports (trimEnd b) c = joinReports b c := trimEnd_append_trimEnd _ b
    rw [joinReports_of_blank ha, joinReports_of_blank ha, htrim, hleft]
    simp
  | false =>
    have hinner : Text.Solid (b ++ "\n\n" ++ trimEnd a) := (solid_trimEnd ha).append_left _
    have hne : c ++ "\n\n" ++ b ≠ "" := by
      intro hempty
      have hlist := congrArg String.toList hempty
      simp at hlist
    -- from the left nothing is cut but the end of the first report
    rw [joinReports_of_not_blank ha, joinReports_eq hinner, joinReports_of_not_blank ha]
    calc c ++ "\n\n" ++ (b ++ "\n\n" ++ trimEnd a) = joinReports b c ++ "\n\n" ++ trimEnd a
        ↔ c ++ "\n\n" ++ b = joinReports b c := by
          simp only [← String.append_assoc, String.append_left_inj]
      _ ↔ Text.Solid (c ++ "\n\n" ++ b) := by
          rw [eq_comm, joinReports, trimEnd_eq_self_iff hne]
      _ ↔ false = true ∨ Text.Solid b := by
          rw [solid_line_append_iff]
          simp

/-! ### Three verdicts -/

/-- Both ways of grouping a join of three verdicts come to the same exactly where no trim can tell
them apart. -/
structure Groups (join : Verdict → Verdict → Verdict) : Prop where
  of_success : ∀ u v w, u = success ∨ v = success ∨ w = success →
    join (join u v) w = join u (join v w)
  of_failures : ∀ a b c, join (join (failure a) (failure b)) (failure c) =
    join (failure a) (join (failure b) (failure c)) ↔ isBlankText a = true ∨ Text.Solid b

theorem groups_both : Groups both where
  of_success := by
    rintro u v w (rfl | rfl | rfl)
    · rw [success_both, success_both]
    · rw [both_success, success_both]
    · rw [both_success, both_success]
  of_failures := by
    intro a b c
    exact failure.injEq _ _ ▸ joinReports_assoc_iff

@[simp] theorem success_either (v : Verdict) : success.either v = success := by cases v <;> rfl

@[simp] theorem either_success (v : Verdict) : v.either success = success := by cases v <;> rfl

theorem groups_either : Groups either where
  of_success := by
    rintro u v w (rfl | rfl | rfl)
    · rw [success_either, success_either, success_either]
    · rw [either_success, success_either, either_success]
    · rw [either_success, either_success, either_success]
  of_failures := by
    intro a b c
    exact failure.injEq _ _ ▸ joinReports_assoc_iff

/-- The middle one of three verdicts decides, and a solid one always lets them be regrouped. -/
theorem Groups.assoc {join : Verdict → Verdict → Verdict} (hj : Groups join) (u : Verdict)
    (hv : v.Solid) (w : Verdict) : join (join u v) w = join u (join v w) := by
  cases u with
  | success => exact hj.of_success _ _ _ (.inl rfl)
  | failure a =>
    cases v with
    | success => exact hj.of_success _ _ _ (.inr (.inl rfl))
    | failure b =>
      cases w with
      | success => exact hj.of_success _ _ _ (.inr (.inr rfl))
      | failure c => exact (hj.of_failures a b c).2 (.inr (solid_failure.1 hv))

/-! ### Solid verdicts -/

theorem Solid.either (hv : v.Solid) (hw : w.Solid) : (v.either w).Solid := by
  cases v with
  | success => exact (success_either w).symm ▸ solid_success
  | failure a =>
    cases w with
    | success => exact solid_success
    | failure b => exact hv.both hw

theorem solid_any (hvs : ∀ v ∈ vs, v.Solid) : (any vs).Solid := by
  suffices hfold : ∀ v : Verdict, v.Solid → (vs.foldl Verdict.either v).Solid from
    hfold _ (solid_fail noAlternative)
  induction vs with
  | nil => exact fun v hv => hv
  | cons w vs ih =>
    obtain ⟨hw, hvs⟩ := List.forall_mem_cons.1 hvs
    exact fun v hv => ih hvs _ (hv.either hw)

/-- A heading keeps a verdict solid, whatever it says. -/
theorem Solid.under (hv : v.Solid) (heading : String) : (v.under heading).Solid := by
  cases v with
  | success => exact solid_success
  | failure report => exact hv.both (solid_fail heading)

/-- A report is solid if it is not blank and does not end in a blank. -/
theorem solid_failure_iff : (failure a).Solid ↔
    isBlankText a = false ∧ ∃ c, a.toList.getLast? = some c ∧ isBlank c = false := by
  rw [solid_failure]
  constructor
  · exact fun ha => ⟨ha.isBlankText_eq, solid_iff_getLast?.1 ha⟩
  · exact fun ha => solid_iff_getLast?.2 ha.2

/-- Solid verdicts are a monoid under AND, in which success is neutral, and a semigroup under OR, in
which success absorbs; and whatever the library makes of them is solid. -/
structure SolidLaws : Prop where
  both_assoc : ∀ u v w : Verdict, u.Solid → v.Solid → w.Solid →
    (u.both v).both w = u.both (v.both w)
  success_both : ∀ v : Verdict, success.both v = v
  both_success : ∀ v : Verdict, v.both success = v
  either_assoc : ∀ u v w : Verdict, u.Solid → v.Solid → w.Solid →
    (u.either v).either w = u.either (v.either w)
  success_either : ∀ v : Verdict, success.either v = success
  either_success : ∀ v : Verdict, v.either success = success
  solid_iff : ∀ report, (failure report).Solid ↔
    isBlankText report = false ∧ ∃ c, report.toList.getLast? = some c ∧ isBlank c = false
  success : success.Solid
  fail : ∀ message, (fail message).Solid
  both : ∀ v w : Verdict, v.Solid → w.Solid → (v.both w).Solid
  either : ∀ v w : Verdict, v.Solid → w.Solid → (v.either w).Solid
  all : ∀ vs, (∀ v ∈ vs, Solid v) → (all vs).Solid
  any : ∀ vs, (∀ v ∈ vs, Solid v) → (any vs).Solid
  under : ∀ v : Verdict, v.Solid → ∀ heading, (v.under heading).Solid

theorem solidLaws : SolidLaws where
  both_assoc := fun u _ w _ hv _ => groups_both.assoc u hv w
  success_both := Verdict.success_both
  both_success := Verdict.both_success
  either_assoc := fun u _ w _ hv _ => groups_either.assoc u hv w
  success_either := Verdict.success_either
  either_success := Verdict.either_success
  solid_iff := fun _ => solid_failure_iff
  success := solid_success
  fail := solid_fail
  both := fun _ _ hv hw => hv.both hw
  either := fun _ _ hv hw => hv.either hw
  all := fun _ hvs => solid_all hvs
  any := fun _ hvs => solid_any hvs
  under := fun _ hv heading => hv.under heading

/-- **Joins group exactly where nothing can be cut off.**  If one of three verdicts is a success,
both groupings of them under AND come to the same, and so they do under OR.  If all three are
failures, they come to the same exactly if the first report is blank or the second one ends in a
character that is no blank.  On solid verdicts, which all operations yield, the one join is a monoid
and the other a semigroup. -/
theorem joins_group_exactly : Groups both ∧ Groups either ∧ SolidLaws :=
  ⟨groups_both, groups_either, solidLaws⟩

/-- The blank at the end of the second report is cut from the right only. -/
example : joinReports (joinReports "a" "b ") "c" = "c\n\nb \n\na" ∧
    joinReports "a" (joinReports "b " "c") = "c\n\nb\n\na" := by
  decide

end Verdict

end Lawbook
