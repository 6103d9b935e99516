/-
Lawbook/Verdict.lean

Verdicts: what a check has to say.  Either nothing is wrong, or there is a report for a human
reader of what is.

Verdicts are combined under AND (`both`, `all`) and under OR (`either`, `any`), and a report can be
put under a heading (`under`).  Two reports join with the later one first, one blank line between
them, and no blanks at the end.

* `both_success`, `success_both` : success is the neutral verdict of AND;
* `either_eq_success_iff`, `both_eq_success_iff` : the two joins are OR and AND on success;
* `all_eq_success_iff` : AND over a list succeeds exactly if all its members do;
* `any_eq_success_iff` : OR over a list succeeds exactly if one of its members does;
* `under_eq_success_iff` : a heading changes no verdict, only its report.
-/
import Lawbook.Text.Blank

namespace Lawbook

open Text

/-- The outcome of a check. -/
inductive Verdict where
  | success
  | failure (report : String)
deriving DecidableEq, Repr, Inhabited

namespace Verdict

/-! ### Reports -/

/-- The report of a failure that has nothing to say. -/
def emptyReport : String := "Unspecified failure"

/-- A failure with the given message, less the blanks at its end.  A blank message is replaced, so
that no report is empty. -/
def fail (message : String) : Verdict :=
  if isBlankText message then .failure emptyReport else .failure (trimEnd message)

/-- Two reports as one: the later one, a blank line, the earlier one. -/
def joinReports (earlier later : String) : String :=
  trimEnd (later ++ "\n\n" ++ earlier)

/-- Whether nothing is wrong. -/
def isSuccess : Verdict → Bool
  | success => true
  | failure _ => false

/-- Whether something is wrong. -/
def isFailure (v : Verdict) : Bool :=
  !v.isSuccess

/-- The report of a failure. -/
def report? : Verdict → Option String
  | success => none
  | failure report => some report

theorem isSuccess_iff {v : Verdict} : v.isSuccess ↔ v = success := by
  cases v <;> simp [isSuccess]

/-- A failure is one, whatever its message: also a blank one, which is replaced. -/
@[simp] theorem isSuccess_fail (message : String) : (fail message).isSuccess = false := by
  unfold fail; split <;> rfl

/-! ### Joining verdicts -/

/-- AND: fails if either side fails, with what both sides have to say. -/
def both : Verdict → Verdict → Verdict
  | success, success => success
  | failure a, success => failure a
  | success, failure b => failure b
  | failure a, failure b => failure (joinReports a b)

/-- OR: fails only if both sides fail. -/
def either : Verdict → Verdict → Verdict
  | failure a, failure b => failure (joinReports a b)
  | _, _ => success

@[simp] theorem both_success (v : Verdict) : v.both success = v := by cases v <;> rfl

@[simp] theorem success_both (v : Verdict) : success.both v = v := by cases v <;> rfl

/-- AND succeeds exactly if both sides do. -/
theorem both_eq_success_iff {a b : Verdict} : a.both b = success ↔ a = success ∧ b = success := by
  cases a <;> cases b <;> simp [both]

/-- OR succeeds exactly if one of the sides does. -/
theorem either_eq_success_iff {a b : Verdict} :
    a.either b = success ↔ a = success ∨ b = success := by
  cases a <;> cases b <;> simp [either]

/-- What an empty choice reports. -/
def noAlternative : String := "No alternative held"

/-- AND over a list: succeeds on the empty list. -/
def all (vs : List Verdict) : Verdict :=
  vs.foldl both success

/-- OR over a list: fails on the empty list. -/
def any (vs : List Verdict) : Verdict :=
  vs.foldl either (fail noAlternative)

/-- A failure put under a heading. -/
def under (heading : String) : Verdict → Verdict
  | success => success
  | v => v.both (fail heading)

/-- A heading changes a report, but no success. -/
theorem under_eq_success_iff {heading : String} {v : Verdict} :
    v.under heading = success ↔ v = success := by
  cases v <;> simp [under, both_eq_success_iff]

/-- AND over a list, from any verdict on: the form in which the induction goes through. -/
theorem foldl_both_eq_success_iff {vs : List Verdict} {v : Verdict} :
    vs.foldl both v = success ↔ v = success ∧ ∀ w ∈ vs, w = success := by
  induction vs generalizing v with
  | nil => simp
  | cons w vs ih => rw [List.foldl_cons, ih, both_eq_success_iff, List.forall_mem_cons, and_assoc]

/-- AND over a list succeeds exactly if all its members do. -/
theorem all_eq_success_iff {vs : List Verdict} : all vs = success ↔ ∀ v ∈ vs, v = success := by
  rw [all, foldl_both_eq_success_iff]
  simp

/-- OR over a list, from any verdict on.  One success is enough, and nothing behind it takes it
back. -/
theorem foldl_either_eq_success_iff {vs : List Verdict} {v : Verdict} :
    vs.foldl either v = success ↔ v = success ∨ success ∈ vs := by
  induction vs generalizing v with
  | nil => simp
  | cons w vs ih =>
    rw [List.foldl_cons, ih, either_eq_success_iff, or_assoc, List.mem_cons, eq_comm (a := success)]

/-- OR over a list succeeds exactly if one of its members does; the empty choice fails. -/
theorem any_eq_success_iff {vs : List Verdict} : any vs = success ↔ success ∈ vs := by
  rw [any, foldl_either_eq_success_iff, or_iff_right]
  intro hs
  have hf := isSuccess_fail noAlternative
  rw [hs] at hf
  cases hf

/-! ### Truth values -/

@[simp] theorem isSuccess_both (a b : Verdict) :
    (a.both b).isSuccess = (a.isSuccess && b.isSuccess) := by
  cases a <;> cases b <;> rfl

@[simp] theorem isSuccess_under (heading : String) (v : Verdict) :
    (v.under heading).isSuccess = v.isSuccess := by
  rw [Bool.eq_iff_iff, isSuccess_iff, isSuccess_iff, under_eq_success_iff]

/-- Whether AND over a list succeeds can be computed from whether its members do. -/
theorem isSuccess_all (vs : List Verdict) : (all vs).isSuccess = vs.all isSuccess := by
  rw [Bool.eq_iff_iff, isSuccess_iff, all_eq_success_iff, List.all_eq_true]
  exact forall₂_congr fun _ _ => isSuccess_iff.symm

/-- Whether OR over a list succeeds can be computed from whether its members do. -/
theorem isSuccess_any (vs : List Verdict) : (any vs).isSuccess = vs.any isSuccess := by
  rw [Bool.eq_iff_iff, isSuccess_iff, any_eq_success_iff, List.any_eq_true]
  constructor
  · exact fun hm => ⟨success, hm, rfl⟩
  · rintro ⟨v, hm, hv⟩
    exact isSuccess_iff.1 hv ▸ hm

/-! ### Verdicts as results -/

/-- A broken law, as an error at the boundary of a program. -/
structure Violation where
  report : String
deriving DecidableEq, Repr

/-- The message of a broken law is its report. -/
def Violation.message (v : Violation) : String :=
  v.report

/-- The verdict as the result of an operation that yields nothing. -/
def toExcept : Verdict → Except Violation Unit
  | success => .ok ()
  | failure report => .error ⟨report⟩

/-- The verdict of an operation that fails with a message. -/
def ofExcept : Except String Unit → Verdict
  | .ok () => success
  | .error message => fail message

end Verdict

end Lawbook
