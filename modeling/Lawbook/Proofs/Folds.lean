/-
Lawbook/Proofs/Folds.lean

Folds: what AND and OR come to over a whole list.

Both are folds from the left, and each join puts the verdict that comes next in front of what there
is and trims the result at its end.  Nothing is cut off where all reports are solid.  So the
failures of the list are reported in full, each of them once and the last one first, with one blank
line between (`all_eq_failure`).  OR starts from a failure of its own.  That one is the earliest of
all, so its line ends the report (`any_eq_failure`).

AND can be cut anywhere: a list is the AND of its two halves (`all_append`).  The fold over the
second half starts from the verdict on the first one, and `foldl_both` moves this start out of the
fold.  Only the second half has to be solid, since the verdicts there are the middle ones of each
regrouping.

Main result: `Verdict.folds_closed`.
-/
import Lawbook.Proofs.Grouping

namespace Lawbook

namespace Verdict

open Text

variable {vs ws : List Verdict}

/-! ### The reports of a list -/

theorem filterMap_report?_eq_nil_iff : vs.filterMap report? = [] ↔ ∀ v ∈ vs, v = success := by
  rw [List.filterMap_eq_nil_iff]
  refine forall₂_congr fun v _ => ?_
  cases v <;> simp [report?]

/-- A failing AND reports what all failures report, the last one first. -/
theorem all_eq_failure (hvs : ∀ v ∈ vs, v.Solid) (hf : ¬ ∀ v ∈ vs, v = success) :
    all vs = failure ("\n\n".intercalate (vs.filterMap report?).reverse) := by
  have hne : (vs.filterMap report?).reverse ≠ [] := by
    rw [Ne, List.reverse_eq_nil_iff, filterMap_report?_eq_nil_iff]
    exact hf
  rw [all_eq_ofParts hvs, ofParts_of_ne_nil hne]

/-- A failing OR reports what all alternatives report, the last one first, and then its own line. -/
theorem any_eq_failure (hvs : ∀ v ∈ vs, v.Solid) (hn : success ∉ vs) :
    any vs = failure ("\n\n".intercalate ((vs.filterMap report?).reverse ++ [noAlternative])) := by
  have hne : (vs.filterMap report?).reverse ++ [noAlternative] ≠ [] :=
    List.append_ne_nil_of_right_ne_nil _ (List.cons_ne_nil _ _)
  rw [any_eq_ofParts hvs, if_neg hn, ofParts_of_ne_nil hne]

/-! ### Lists put together -/

/-- **The start moves out of the fold.**  A fold of AND from any verdict on is the AND of this
verdict and the list, if the verdicts of the list are solid. -/
theorem foldl_both (u : Verdict) (hvs : ∀ v ∈ vs, v.Solid) : vs.foldl both u = u.both (all vs) := by
  induction vs generalizing u with
  | nil => exact (both_success u).symm
  | cons w vs ih =>
    obtain ⟨hw, hvs⟩ := List.forall_mem_cons.1 hvs
    have hall : all (w :: vs) = w.both (all vs) := by
      show vs.foldl both (success.both w) = _
      rw [success_both, ih w hvs]
    -- the head is the middle one of the three, and so it is the one that must be solid
    calc (w :: vs).foldl both u = (u.both w).both (all vs) := ih (u.both w) hvs
      _ = u.both (w.both (all vs)) := groups_both.assoc u hw (all vs)
      _ = u.both (all (w :: vs)) := by rw [hall]

/-- AND over two lists, one behind the other, is the AND of both. -/
theorem all_append (vs : List Verdict) (hws : ∀ w ∈ ws, w.Solid) :
    all (vs ++ ws) = (all vs).both (all ws) := by
  show (vs ++ ws).foldl both success = _
  rw [List.foldl_append, foldl_both _ hws]
  rfl

/-! ### Closed forms -/

/-- What the two folds come to over a list: when they succeed, what they report otherwise, that no
report of theirs is blank or ends in a blank, and that AND can be cut behind the list. -/
structure Folds (vs : List Verdict) : Prop where
  all_success : all vs = success ↔ ∀ v ∈ vs, v = success
  all_failure : (¬ ∀ v ∈ vs, v = success) →
    all vs = failure ("\n\n".intercalate (vs.filterMap report?).reverse)
  any_success : any vs = success ↔ ∃ v ∈ vs, v = success
  any_failure : (¬ ∃ v ∈ vs, v = success) →
    any vs = failure ("\n\n".intercalate ((vs.filterMap report?).reverse ++ [noAlternative]))
  ends : ∀ report, all vs = failure report ∨ any vs = failure report →
    isBlankText report = false ∧ ∃ c, report.toList.getLast? = some c ∧ isBlank c = false
  append : ∀ ws, (∀ w ∈ ws, Solid w) → all (vs ++ ws) = (all vs).both (all ws)

/-- **The folds have closed forms.**  Over verdicts that are solid, AND succeeds exactly if all of
them do, and it reports all failures in reverse order, with one blank line between; OR succeeds
exactly if one of them does, and it reports them all in reverse order and last that no alternative
held.  Both are solid again, and AND over a list is the AND of its two parts, wherever it is cut. -/
theorem folds_closed (hvs : ∀ v ∈ vs, v.Solid) : Folds vs where
  all_success := all_eq_success_iff
  all_failure := all_eq_failure hvs
  any_success := by
    rw [any_eq_success_iff]
    constructor
    · exact fun hs => ⟨success, hs, rfl⟩
    · rintro ⟨v, hv, rfl⟩
      exact hv
  any_failure := by
    intro hn
    exact any_eq_failure hvs fun hs => hn ⟨success, hs, rfl⟩
  ends := by
    rintro report (hr | hr)
    · exact solid_failure_iff.1 (hr ▸ solid_all hvs)
    · exact solid_failure_iff.1 (hr ▸ solid_any hvs)
  append := fun _ hws => all_append vs hws

end Verdict

/-! ### Measurements -/

namespace Measurements

open Verdict

/-- Three results, of which the middle one is good. -/
def mixed : List Verdict := [.fail "too long", .success, .fail "too wide"]

/-- Two results, of which none is good. -/
def bad : List Verdict := [.fail "too early", .fail "too late"]

/-- AND leaves out the good result, OR needs no other, and without one it reports them all. -/
theorem mixed_folds : (∀ v ∈ mixed, v.Solid) ∧ (∀ v ∈ bad, v.Solid) ∧
    all mixed = .failure "too wide\n\ntoo long" ∧ any mixed = .success ∧
      any bad = .failure "too late\n\ntoo early\n\nNo alternative held" ∧
        all (mixed ++ bad) = (all mixed).both (all bad) := by
  have hmixed : ∀ v ∈ mixed, v.Solid := by
    simp [mixed, solid_fail, solid_success]
  have hbad : ∀ v ∈ bad, v.Solid := by
    simp [bad, solid_fail]
  have hfolds := folds_closed hmixed
  have hall := hfolds.all_failure (by decide)
  have hany := hfolds.any_success.2 ⟨.success, by decide, rfl⟩
  have hnone := (folds_closed hbad).any_failure (by decide)
  exact ⟨hmixed, hbad, hall.trans (by decide), hany, hnone.trans (by decide),
    hfolds.append bad hbad⟩

end Measurements

end Lawbook
