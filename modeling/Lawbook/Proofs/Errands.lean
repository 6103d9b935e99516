/-
Lawbook/Proofs/Errands.lean

Errands: what a program does at its desk, one thing after the other.

A desk has a registry of classes and a table of declarations.  A program registers classes,
requests validations, validates declared classes directly, and declares subjects; and in between it
goes on in its own ways.  `runEach` runs a list of such errands and collects the replies.

* `Errand.runEach_append` : errands can be run in two parts, the later ones at the desk that the
  earlier ones leave behind;
* `Errand.runEach_answered` : every errand comes back with a reply of its own kind;
* `Errand.runEach_validateAll` : a direct validation comes to the same with any records at the desk,
  and leaves the desk as it is.
-/
import Lawbook.Proofs.Requests

namespace Lawbook

open Event Run

variable {κ ω α : Type}

/-- What a program does at its desk. -/
inductive Errand (κ ω α : Type) where
  /-- The host goes on without the library. -/
  | proceed (step : World ω → World ω)
  /-- A class joins the registry. -/
  | register (d : Draft (World ω) α)
  /-- A class is validated against a generator. -/
  | validate (id : ClassId) (g : Generator (World ω) α) (c : Config)
  /-- Classes are validated directly for a subject. -/
  | validateAll (sub : Subject κ ω α) (k : GeneratorId) (m : Membership) (c : Config)
  /-- A subject is declared an instance of a class, without validation. -/
  | declare (key : κ) (id : ClassId)
  /-- The declared classes of a subject are validated directly. -/
  | confirm (sub : Subject κ ω α) (k : GeneratorId) (c : Config)
  /-- A subject is declared an instance of a class, if validation succeeds. -/
  | enroll (key : κ) (id : ClassId) (g : Generator (World ω) α) (c : Config)

/-- What comes back from an errand. -/
inductive Reply where
  | done
  | registered (answer : Except ClassError ClassId)
  | judged (verdict : Verdict)
  | declared (answer : Except InstanceError Unit)

namespace Errand

/-- Which replies an errand can come back with. -/
inductive Answered : Errand κ ω α → Reply → Prop
  | proceed {step} : Answered (proceed step) .done
  | register {d answer} : Answered (register d) (.registered answer)
  | validate {id g c v} : Answered (validate id g c) (.judged v)
  | validateAll {sub k m c v} : Answered (validateAll sub k m c) (.judged v)
  | declare {key id} : Answered (declare key id) .done
  | confirm {sub k c answer} : Answered (confirm sub k c) (.declared answer)
  | enroll {key id g c answer} : Answered (enroll key id g c) (.declared answer)

variable [DecidableEq κ] [Inspectable α]

/-- Runs one errand: its reply, and the desk afterwards. -/
def run (desk : Desk κ (World ω) α) :
    Errand κ ω α → Run (World ω) (Event α) (Reply × Desk κ (World ω) α)
  | proceed step => do
    Run.host fun w => ((), step w)
    return (.done, desk)
  | register d => do
    let (answer, registry) ← desk.registry.register d
    return (.registered answer, ⟨registry, desk.table⟩)
  | validate id g c => do
    let (verdict, registry) ← desk.registry.validate id g c
    return (.judged verdict, ⟨registry, desk.table⟩)
  | validateAll sub k m c => do
    return (.judged (← Lawbook.validateAll desk.registry.hierarchy sub k m c), desk)
  | declare key id => return (.done, ⟨desk.registry, desk.table.declare key id⟩)
  | confirm sub k c => do
    let (answer, table) ← desk.table.validate desk.registry.hierarchy sub k c
    return (.declared answer, ⟨desk.registry, table⟩)
  | enroll key id g c => do
    let (answer, table, registry) ← desk.table.enroll desk.registry key id g c
    return (.declared answer, ⟨registry, table⟩)

/-- Runs errands one after the other. -/
def runEach (desk : Desk κ (World ω) α) :
    List (Errand κ ω α) → Run (World ω) (Event α) (List Reply × Desk κ (World ω) α)
  | [] => return ([], desk)
  | errand :: errands => do
    let (reply, desk) ← errand.run desk
    let (replies, desk) ← runEach desk errands
    return (reply :: replies, desk)

/-- Later errands are run at the desk that the earlier ones leave behind. -/
theorem runEach_append (desk : Desk κ (World ω) α) (errands later : List (Errand κ ω α)) :
    runEach desk (errands ++ later) = do
      let (replies, desk) ← runEach desk errands
      let (replies', desk) ← runEach desk later
      return (replies ++ replies', desk) := by
  induction errands generalizing desk with
  | nil =>
    rw [List.nil_append, runEach, LawfulMonad.pure_bind]
    exact (bind_pure _).symm
  | cons errand errands ih =>
    simp only [List.cons_append, runEach, ih, LawfulMonad.bind_assoc, LawfulMonad.pure_bind]

/-- Every errand comes back with a reply of its own kind. -/
theorem run_answered (desk : Desk κ (World ω) α) (errand : Errand κ ω α) (w : World ω) :
    errand.Answered ((errand.run desk).value w).1 := by
  cases errand <;> constructor

theorem runEach_answered (desk : Desk κ (World ω) α) (errands : List (Errand κ ω α))
    (w : World ω) : List.Forall₂ Answered errands ((runEach desk errands).value w).1 := by
  induction errands generalizing desk w with
  | nil => exact .nil
  | cons errand errands ih => exact .cons (errand.run_answered desk w) (ih _ _)

/-- **A direct validation leaves everything at the desk as it is**, and goes by its classes only.
Whatever errands were run before, its reply is the verdict on the classes that are there by then,
and all it changes is the world. -/
theorem runEach_validateAll (errands : List (Errand κ ω α)) (sub : Subject κ ω α)
    (k : GeneratorId) (m : Membership) (c : Config) (w₀ : World ω) :
    let before := runEach .empty errands
    let desk := (before.value w₀).2
    let w := before.final w₀
    let direct := Lawbook.validateAll desk.registry.hierarchy sub k m c
    runEach .empty (errands ++ [.validateAll sub k m c]) w₀ =
      (((before.value w₀).1 ++ [.judged (direct.value w)], desk), direct.final w,
        before.events w₀ ++ direct.events w) := by
  intro before desk w direct
  rw [runEach_append, bind_apply]
  show ((_, desk), direct.final w, before.events w₀ ++ (((direct.events w ++ []) ++ []) ++ [])) = _
  rw [List.append_nil, List.append_nil, List.append_nil]
  rfl

end Errand

end Lawbook
