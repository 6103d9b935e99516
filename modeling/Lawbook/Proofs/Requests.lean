/-
Lawbook/Proofs/Requests.lean

Requests: runs of operations on one registry, and what can become of it.

A registry is used together with a table of declarations.  Classes join it, classes are validated,
subjects are declared, with or without a validation, in any order, and in between the host goes on
in its own ways.  Whatever is asked, only two things ever happen to the registry: its hierarchy
grows, and a class is settled.  `Onward` is the relation of such steps; it forgets which requests
were made and in which states of the host, and keeps the work that was reported.

Main results: every request and every sequence of requests leads onward (`Desk.answer_onward`,
`Desk.serve_onward`), so an invariant of a registry needs one argument for each of the two steps.
Records and classes stay for good (`Onward.keeps`, `Onward.grows`).
-/
import Lawbook.Proofs.Walk

namespace Lawbook

open Event

variable {κ σ α : Type}

/-! ### Operations -/

/-- An operation on a registry and on the table of declarations beside it. -/
inductive Request (κ σ α : Type) where
  /-- The host goes on without the library. -/
  | proceed (step : σ → σ)
  /-- A class joins the registry. -/
  | register (d : Draft σ α)
  /-- A class is validated against a generator. -/
  | validate (id : ClassId) (g : Generator σ α) (c : Config)
  /-- A subject is declared an instance of a class, without validation. -/
  | declare (key : κ) (id : ClassId)
  /-- A subject is declared an instance of a class, if validation succeeds. -/
  | enroll (key : κ) (id : ClassId) (g : Generator σ α) (c : Config)

/-- The generator and the configuration that a request comes with. -/
def Request.asks? : Request κ σ α → Option (Generator σ α × Config)
  | validate _ g c => some (g, c)
  | enroll _ _ g c => some (g, c)
  | _ => none

/-- The generators and configurations of several requests. -/
def Asked (qs : List (Request κ σ α)) (g : Generator σ α) (c : Config) : Prop :=
  ∃ q ∈ qs, q.asks? = some (g, c)

/-- A registry and the declarations of subjects. -/
structure Desk (κ σ α : Type) where
  registry : Registry σ α
  table : InstanceTable κ

namespace Desk

variable [Inspectable α] [DecidableEq κ]

/-- The desk without classes, verdicts and declarations. -/
def empty : Desk κ σ α := ⟨.empty, .empty⟩

/-- Carries one operation out. -/
def answer (desk : Desk κ σ α) : Request κ σ α → Run σ (Event α) (Desk κ σ α)
  | .proceed step => do
    Run.host fun s => ((), step s)
    return desk
  | .register d => return ⟨(← desk.registry.register d).2, desk.table⟩
  | .validate id g c => return ⟨(← desk.registry.validate id g c).2, desk.table⟩
  | .declare key id => return ⟨desk.registry, desk.table.declare key id⟩
  | .enroll key id g c => do
    let (_, table, registry) ← desk.table.enroll desk.registry key id g c
    return ⟨registry, table⟩

/-- Carries operations out, one after the other. -/
def serve (desk : Desk κ σ α) (qs : List (Request κ σ α)) : Run σ (Event α) (Desk κ σ α) :=
  qs.foldlM answer desk

/-- The desk after operations on an empty one. -/
def after (qs : List (Request κ σ α)) (s : σ) : Desk κ σ α :=
  (empty.serve qs).value s

/-- What is reported during operations on an empty desk. -/
def history (qs : List (Request κ σ α)) (s : σ) : List (Event α) :=
  (empty.serve qs).events s

end Desk

/-! ### What becomes of a registry -/

variable [Inspectable α]

/-- From the registry `r`, the hierarchy grows and classes are settled for generators and
configurations with `Asks`, with the work that is reported on the way. -/
inductive Onward (Asks : Generator σ α → Config → Prop) (r : Registry σ α) :
    Registry σ α → List (Event α) → Prop
  | refl : Onward Asks r r []
  | grow {h h' l es} :
      Onward Asks r ⟨h, l⟩ es → h.Grows h' → Onward Asks r ⟨h', l⟩ es
  | settle {h l es g c s id cls inherited} :
      Onward Asks r ⟨h, l⟩ es →
      Asks g c →
      h.class? id = some cls →
      l.verdict? g.id id = none →
      List.Forall₂ (h.Inherits g l) cls.parents inherited →
      Onward Asks r
        ⟨h, l.record g.id id
          (Hierarchy.joined g.name cls.name inherited ((cls.checkLaws id g c).value s))⟩
        (es ++ work ((cls.checkLaws id g c).events s))

namespace Onward

variable {Asks Asks' : Generator σ α → Config → Prop}
variable {r r' r'' : Registry σ α} {es es' : List (Event α)}

/-- Ways onward can be put one after the other. -/
theorem trans (ho : Onward Asks r r' es) (ho' : Onward Asks r' r'' es') :
    Onward Asks r r'' (es ++ es') := by
  induction ho' with
  | refl => simpa using ho
  | grow _ hg ih => exact ih.grow hg
  | settle _ ha hc hv hi ih =>
    rw [← List.append_assoc]
    exact ih.settle ha hc hv hi

theorem mono (ho : Onward Asks r r' es) (himp : ∀ g c, Asks g c → Asks' g c) :
    Onward Asks' r r' es := by
  induction ho with
  | refl => exact .refl
  | grow _ hg ih => exact ih.grow hg
  | settle _ ha hc hv hi ih => exact ih.settle (himp _ _ ha) hc hv hi

/-- Classes stay for good. -/
theorem grows (ho : Onward Asks r r' es) : r.hierarchy.Grows r'.hierarchy := by
  induction ho with
  | refl => exact .refl _
  | grow _ hg ih => exact ih.trans hg
  | settle _ _ _ _ _ ih => exact ih

/-- Records stay for good. -/
theorem keeps (ho : Onward Asks r r' es) {k : GeneratorId} {d : ClassId} {v : Verdict}
    (hv : r.ledger.verdict? k d = some v) : r'.ledger.verdict? k d = some v := by
  induction ho with
  | refl => exact hv
  | grow _ _ ih => exact ih
  | settle _ _ _ _ _ ih => exact Ledger.verdict?_record_of_some ih ..

end Onward

/-- To settle classes one after the other leads onward. -/
theorem Hierarchy.Settles.onward {Asks : Generator σ α → Config → Prop} {h : Hierarchy σ α}
    {g : Generator σ α} {c : Config} {x y : σ × Ledger} {plan : List ClassId}
    {es : List (Event α)} (hs : h.Settles g c x plan y es) (ha : Asks g c) :
    Onward Asks ⟨h, x.2⟩ ⟨h, y.2⟩ es := by
  induction hs with
  | refl => exact .refl
  | snoc _ hc hv hi ih => exact ih.settle ha hc hv hi

namespace Registry

variable (r : Registry σ α) (s : σ)

/-- To register a class lets the hierarchy grow, or changes nothing. -/
theorem register_onward (Asks : Generator σ α → Config → Prop) (d : Draft σ α) :
    Onward Asks r ((r.register d).value s).2 (work ((r.register d).events s)) := by
  unfold register
  cases hd : r.hierarchy.register d with
  | error e => exact .refl
  | ok h =>
    refine Onward.grow (h := r.hierarchy) .refl ?_
    unfold Hierarchy.register at hd
    split at hd
    · cases hd
    · cases hd
      exact Hierarchy.grows_push _ _ _

/-- A request settles the classes of its plan, or nothing if the class is not there. -/
theorem validate_onward {Asks : Generator σ α → Config → Prop} {g : Generator σ α} {c : Config}
    (ha : Asks g c) (id : ClassId) :
    Onward Asks r ((r.validate id g c).value s).2 (work ((r.validate id g c).events s)) := by
  by_cases hid : id.index < r.hierarchy.size
  · obtain ⟨plan, hp⟩ := validate_settles r id g c s hid
    exact hp.settles.onward ha
  · rw [Run.value, Run.events, validate_unknown r id g c s hid]
    exact .refl

/-- To enroll a subject does to the registry what validation does, if there is such a class, and
nothing otherwise. -/
theorem enroll_onward [DecidableEq κ] {Asks : Generator σ α → Config → Prop} {g : Generator σ α}
    {c : Config} (ha : Asks g c) (t : InstanceTable κ) (key : κ) (id : ClassId) :
    Onward Asks r ((t.enroll r key id g c).value s).2.2
      (work ((t.enroll r key id g c).events s)) := by
  have hv := r.validate_onward s ha id
  unfold InstanceTable.enroll
  cases r.hierarchy.find id with
  | error e => exact .refl
  | ok cls =>
    rw [Run.value_bind, Run.events_bind, work_append]
    revert hv
    generalize r.validate id g c = m
    obtain ⟨verdict, r'⟩ := m.value s
    intro hv
    cases verdict <;> exact hv.trans .refl

end Registry

namespace Desk

variable [DecidableEq κ] (desk : Desk κ σ α) (s : σ)

/-- **Every request leads onward.** -/
theorem answer_onward {Asks : Generator σ α → Config → Prop} (q : Request κ σ α)
    (ha : ∀ g c, q.asks? = some (g, c) → Asks g c) :
    Onward Asks desk.registry ((desk.answer q).value s).registry
      (work ((desk.answer q).events s)) := by
  cases q with
  | proceed step => exact .refl
  | register d =>
    rw [answer, Run.value_bind, Run.events_bind, work_append]
    exact (desk.registry.register_onward s Asks d).trans .refl
  | validate id g c =>
    rw [answer, Run.value_bind, Run.events_bind, work_append]
    exact (desk.registry.validate_onward s (ha g c rfl) id).trans .refl
  | declare key id => exact .refl
  | enroll key id g c =>
    rw [answer, Run.value_bind, Run.events_bind, work_append]
    exact (desk.registry.enroll_onward s (ha g c rfl) desk.table key id).trans .refl

/-- **Every sequence of requests leads onward.** -/
theorem serve_onward (qs : List (Request κ σ α)) :
    Onward (Asked qs) desk.registry ((desk.serve qs).value s).registry
      (work ((desk.serve qs).events s)) := by
  induction qs generalizing desk s with
  | nil => exact .refl
  | cons q qs ih =>
    have hq : Onward (Asked (q :: qs)) desk.registry ((desk.answer q).value s).registry
        (work ((desk.answer q).events s)) :=
      desk.answer_onward s q fun g c ha => ⟨q, List.mem_cons_self, ha⟩
    have hqs := (ih ((desk.answer q).value s) ((desk.answer q).final s)).mono
      fun g c ⟨q', hm, ha⟩ => (⟨q', List.mem_cons_of_mem q hm, ha⟩ : Asked (q :: qs) g c)
    have ho := hq.trans hqs
    rw [← work_append] at ho
    exact ho

end Desk

/-! ### Four classes of numbers, of which the last one descends from the first one in two ways -/

instance : Inspectable Nat := ⟨fun n => toString n⟩

namespace Diamond

/-- The law that a number is even. -/
def even : Law Unit Nat := ⟨"even", 1, fun values => pure (values.all fun n => n % 2 == 0)⟩

/-- The law that a number is odd. -/
def odd : Law Unit Nat := ⟨"odd", 1, fun values => pure (values.all fun n => n % 2 == 1)⟩

/-- Yields twice the number of the round. -/
def doubles : Generator Unit Nat := ⟨⟨0⟩, "Doubles", fun i => pure (.ok (2 * i))⟩

/-- Another handle with the identity of `doubles`, which yields nothing. -/
def silent : Generator Unit Nat :=
  ⟨doubles.id, "Silent", fun _ => pure (.error (.emptyValues "Silent"))⟩

/-- Two rounds. -/
def config : Config := ⟨2, false, .ambient⟩

/-- The classes join a registry, and the second one is validated. -/
def requests : List (Request Unit Unit Nat) :=
  [.register ⟨some "Even", [], [.obeys even]⟩,
   .register ⟨some "Left", [⟨0⟩], []⟩,
   .register ⟨some "Right", [⟨0⟩], []⟩,
   .register ⟨some "Both", [⟨1⟩, ⟨2⟩], [.obeys even]⟩,
   .validate ⟨1⟩ doubles config]

end Diamond

end Lawbook
