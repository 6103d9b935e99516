/-
Lawbook/Proofs/Queries.lean

Queries: what a registry and a table say of the classes of a subject, and how long it stays true.

Nothing is stored about instances but the declared classes; each query walks through the hierarchy
as it is by then.  So an answer rests on two things that change all the time, and both only grow:
the journal of the table, which is never shortened, and the parent edges of the hierarchy, which
stay when classes join it.  Hence an answer that was true stays true.

An answer that was false can become true in two ways.  Another class is declared for the subject, or
a class joins the hierarchy that was declared before it was there.  So where all declared classes
are registered, nothing but a declaration of the subject turns an answer.

Main result: `Turn.queries_exact_lasting`.
-/
import Lawbook.Proofs.Enrollment

namespace Lawbook

variable {κ ω σ α : Type}

/-! ### One query -/

/-- Whether a subject is an instance of a class. -/
def Desk.isInstance [DecidableEq κ] (desk : Desk κ σ α) (key : κ) (id : ClassId) : Bool :=
  desk.table.isInstance desk.registry.hierarchy key id

namespace Filed

variable [DecidableEq κ] {key : κ} {es : List (Filed κ)}

/-- A query reads the journal: it looks for a declared class from which the other one descends. -/
theorem isInstance_replay_iff {h : Hierarchy σ α} {id : ClassId} :
    (replay es).isInstance h key id ↔ ∃ d, declared key d ∈ es ∧ h.Descends d id := by
  have ht := replay_tells es key
  rw [InstanceTable.isInstance_iff]
  constructor
  · rintro ⟨m, hm, d, hd, hdesc⟩
    rw [ht.classes_eq m hm, mem_distinct_iff, mem_declaredFor_iff] at hd
    exact ⟨d, hd, hdesc⟩
  · rintro ⟨d, hd, hdesc⟩
    obtain ⟨m, hm⟩ := Option.isSome_iff_exists.1 (ht.isSome_iff.2 ⟨d, hd⟩)
    refine ⟨m, hm, d, ?_, hdesc⟩
    rwa [ht.classes_eq m hm, mem_distinct_iff, mem_declaredFor_iff]

end Filed

/-! ### What becomes of a desk -/

/-- The entries `es` lead from the one table to the other, and classes stay. -/
structure Desk.Advances [DecidableEq κ] (desk desk' : Desk κ σ α) (es : List (Filed κ)) : Prop where
  table_eq : desk'.table = es.foldl Filed.enter desk.table
  grows : desk.registry.hierarchy.Grows desk'.registry.hierarchy

namespace Desk

variable [DecidableEq κ] {desk desk' desk'' : Desk κ σ α} {es es' : List (Filed κ)}

theorem Advances.refl (desk : Desk κ σ α) : desk.Advances desk [] :=
  ⟨rfl, .refl _⟩

theorem Advances.trans (ha : desk.Advances desk' es) (ha' : desk'.Advances desk'' es') :
    desk.Advances desk'' (es ++ es') where
  table_eq := by rw [ha'.table_eq, ha.table_eq, List.foldl_append]
  grows := ha.grows.trans ha'.grows

/-- From an empty desk on, a query reads what was filed. -/
theorem Advances.isInstance_iff (ha : empty.Advances desk es) {key : κ} {id : ClassId} :
    desk.isInstance key id ↔
      ∃ d, Filed.declared key d ∈ es ∧ desk.registry.hierarchy.Descends d id := by
  rw [isInstance, ha.table_eq]
  exact Filed.isInstance_replay_iff

variable {key : κ} {id : ClassId}

/-- What was true stays true. -/
theorem Advances.isInstance_lasts (ha : empty.Advances desk es) (ha' : desk.Advances desk' es')
    (hi : desk.isInstance key id) : desk'.isInstance key id := by
  obtain ⟨d, hd, hdesc⟩ := ha.isInstance_iff.1 hi
  exact (ha.trans ha').isInstance_iff.2 ⟨d, List.mem_append_left _ hd, ha'.grows.descends hdesc⟩

/-- Where all declared classes are registered, an answer changes with a declaration only. -/
theorem Advances.isInstance_eq (ha : empty.Advances desk es) (ha' : desk.Advances desk' es')
    (hr : ∀ d, Filed.declared key d ∈ es → d.index < desk.registry.hierarchy.size)
    (hn : ∀ d, Filed.declared key d ∉ es') : desk'.isInstance key id = desk.isInstance key id := by
  rw [Bool.eq_iff_iff, (ha.trans ha').isInstance_iff, ha.isInstance_iff]
  -- the declared classes are the same, and the ways up from each of them are
  refine exists_congr fun d => ?_
  rw [List.mem_append, or_iff_left (hn d)]
  exact and_congr_right fun hd => ha'.grows.descends_iff (hr d hd)

end Desk

/-! ### Turns -/

/-- A turn in the use of a registry and a table. -/
inductive Turn (κ ω α : Type) : Type 1 where
  /-- An operation on the registry and the table. -/
  | request (q : Request κ (World ω) α)
  /-- The declared classes of a subject are validated, as classes of the registry. -/
  | validate (sub : Subject κ ω α) (k : GeneratorId) (c : Config)
  /-- An operation on the table and another registry, for values of any type. -/
  | elsewhere (q : Filing κ ω)

/-- An operation declares a subject, if it goes well. -/
def Filing.Declares (key : κ) : Filing κ ω → Prop
  | declare other _ => other = key
  | @enroll _ _ _ _ _ other _ _ _ => other = key
  | _ => False

/-- A turn declares a subject, if it goes well. -/
def Turn.Declares (key : κ) : Turn κ ω α → Prop
  | request (.declare other _) => other = key
  | request (.enroll other _ _ _) => other = key
  | elsewhere q => q.Declares key
  | _ => False

theorem Filing.mem_filed {e e' : Filed κ} {outcome : Except InstanceError Unit}
    (he : e' ∈ filed e outcome) : e' = e := by
  cases outcome with
  | ok _ => exact List.mem_singleton.1 he
  | error _ => exact absurd he List.not_mem_nil

variable [DecidableEq κ] {key : κ} {d : ClassId}

theorem Filing.declares_of_mem {q : Filing κ ω} {x : InstanceTable κ × World ω}
    (hd : Filed.declared key d ∈ q.carry.events x) : q.Declares key := by
  cases q with
  | declare other id =>
    cases List.mem_singleton.1 hd
    rfl
  | validate h sub k c => cases mem_filed hd
  | enroll r other id g c =>
    cases mem_filed hd
    rfl

variable [Inspectable α]

namespace Desk

/-- What is filed of a request. -/
def filed (desk : Desk κ σ α) (s : σ) : Request κ σ α → List (Filed κ)
  | .declare key id => [.declared key id]
  | .enroll key id g c =>
    Filing.filed (.declared key id) ((desk.table.enroll desk.registry key id g c).value s).1
  | _ => []

/-- A request advances the desk. -/
theorem answer_advances (desk : Desk κ (World ω) α) (q : Request κ (World ω) α) (w : World ω) :
    desk.Advances ((desk.answer q).value w) (desk.filed w q) where
  table_eq := by
    cases q with
    | proceed step => rfl
    | register d => rfl
    | validate id g c => rfl
    | declare key id => rfl
    | enroll key id g c =>
      -- what the enrollment does to the registry does not matter to the table
      exact (Filing.enroll desk.registry key id g c).table_carry (desk.table, w)
  grows := by
    have ho : Onward (fun _ _ => True) desk.registry ((desk.answer q).value w).registry _ :=
      desk.answer_onward w q fun _ _ _ => trivial
    exact ho.grows

end Desk

/-- Carries out an operation on the table of a desk. -/
def Filing.carryAt (q : Filing κ ω) : Run (Desk κ (World ω) α × World ω) (Filed κ) Unit :=
  fun (desk, w) =>
    match q.carry (desk.table, w) with
    | (_, (t, w'), es) => ((), (⟨desk.registry, t⟩, w'), es)

namespace Turn

/-- Carries a turn out, and files what lasts of it. -/
def carry : Turn κ ω α → Run (Desk κ (World ω) α × World ω) (Filed κ) Unit
  | request q => fun (desk, w) =>
    ((), ((desk.answer q).value w, (desk.answer q).final w), desk.filed w q)
  | validate sub k c => fun (desk, w) =>
    (Filing.validate desk.registry.hierarchy sub k c).carryAt (desk, w)
  | elsewhere q => q.carryAt

/-- Every turn advances the desk. -/
theorem carry_advances (q : Turn κ ω α) (x : Desk κ (World ω) α × World ω) :
    x.1.Advances (q.carry.final x).1 (q.carry.events x) := by
  obtain ⟨desk, w⟩ := x
  cases q with
  | request q => exact desk.answer_advances q w
  | validate sub k c =>
    exact ⟨(Filing.validate desk.registry.hierarchy sub k c).table_carry (desk.table, w), .refl _⟩
  | elsewhere q => exact ⟨q.table_carry (desk.table, w), .refl _⟩

/-- So does every run of turns. -/
theorem mapM_advances (qs : List (Turn κ ω α)) (x : Desk κ (World ω) α × World ω) :
    x.1.Advances ((qs.mapM carry).final x).1 ((qs.mapM carry).events x) := by
  induction qs generalizing x with
  | nil => exact .refl _
  | cons q qs ih =>
    rw [Run.final_mapM_cons, Run.events_mapM_cons]
    exact (q.carry_advances x).trans (ih _)

theorem declares_of_mem_carry {q : Turn κ ω α} {x : Desk κ (World ω) α × World ω}
    (hd : Filed.declared key d ∈ q.carry.events x) : q.Declares key := by
  obtain ⟨desk, w⟩ := x
  cases q with
  | request q =>
    cases q with
    | declare other id =>
      cases List.mem_singleton.1 hd
      rfl
    | enroll other id g c =>
      cases Filing.mem_filed hd
      rfl
    | _ => exact absurd hd List.not_mem_nil
  | validate sub k c => cases Filing.mem_filed hd
  | elsewhere q =>
    have hq : Filed.declared key d ∈ q.carry.events (desk.table, w) := hd
    exact Filing.declares_of_mem hq

/-- A declaration that is filed goes back to a turn that declares. -/
theorem exists_declares_of_mem {qs : List (Turn κ ω α)} {x : Desk κ (World ω) α × World ω}
    (hd : Filed.declared key d ∈ (qs.mapM carry).events x) : ∃ q ∈ qs, q.Declares key := by
  induction qs generalizing x with
  | nil => exact absurd hd List.not_mem_nil
  | cons q qs ih =>
    rw [Run.events_mapM_cons] at hd
    rcases List.mem_append.1 hd with hd | hd
    · exact ⟨q, List.mem_cons_self, declares_of_mem_carry hd⟩
    · obtain ⟨q', hq', hdeclares⟩ := ih hd
      exact ⟨q', List.mem_cons_of_mem q hq', hdeclares⟩

/-! ### Answers -/

/-- What there is to say of the answer on a subject and a class, at a desk with a journal. -/
structure Answers (x : Desk κ (World ω) α × World ω) (journal : List (Filed κ)) (key : κ)
    (id : ClassId) : Prop where
  /-- The answer is true exactly if a class was declared for the subject that is the class or has it
  among its transitive parents. -/
  exact_iff : x.1.isInstance key id ↔ ∃ d, Filed.declared key d ∈ journal ∧
    (d = id ∨ Relation.TransGen x.1.registry.hierarchy.Extends d id)
  /-- Once it is true it is true after any further turns. -/
  lasts : x.1.isInstance key id = true →
    ∀ qs : List (Turn κ ω α), ((qs.mapM carry).final x).1.isInstance key id = true
  /-- If all declared classes are registered, it stays false until a declaration is filed. -/
  stays : (∀ d, Filed.declared key d ∈ journal → d.index < x.1.registry.hierarchy.size) →
    x.1.isInstance key id = false →
    ∀ qs : List (Turn κ ω α), (∀ d, Filed.declared key d ∉ (qs.mapM carry).events x) →
      ((qs.mapM carry).final x).1.isInstance key id = false
  /-- Registrations and validations file none, nor do declarations of other subjects. -/
  unfiled : ∀ qs : List (Turn κ ω α), (∀ q ∈ qs, ¬ q.Declares key) →
    ∀ d, Filed.declared key d ∉ (qs.mapM carry).events x

/-- **Queries are exact and lasting.**  After any run of registrations, validations, declarations
and enrollments, with the one registry or with others, a subject is an instance of a class exactly
if a class was declared for it that is this class or has it among its transitive parents.  It
remains an instance whatever comes then.  If all its declared classes are registered, it becomes an
instance of no other class, unless it is declared again. -/
theorem queries_exact_lasting (qs : List (Turn κ ω α)) (w : World ω) (key : κ) (id : ClassId) :
    Answers ((qs.mapM carry).final (.empty, w)) ((qs.mapM carry).events (.empty, w)) key id := by
  have ha := mapM_advances qs (.empty, w)
  -- from here on it only matters that the desk was reached with this journal
  generalize (qs.mapM carry).final (.empty, w) = x, (qs.mapM carry).events (.empty, w) = es at ha
  refine ⟨?_, fun hi qs' => ?_, fun hr hi qs' hn => ?_, fun qs' hqs' d hd => ?_⟩
  · rw [ha.isInstance_iff]
    simp only [Hierarchy.Descends, Relation.reflTransGen_iff_eq_or_transGen, eq_comm]
  · exact ha.isInstance_lasts (mapM_advances qs' x) hi
  · rw [ha.isInstance_eq (mapM_advances qs' x) hr hn, hi]
  · obtain ⟨q, hq, hdeclares⟩ := exists_declares_of_mem hd
    exact hqs' q hq hdeclares

/-- A class that is declared before it is there turns an answer when it is registered. -/
example :
    let before : List (Turn Unit Unit Nat) :=
      [.request (.register ⟨some "Even", [], []⟩), .request (.declare () ⟨1⟩)]
    let later : List (Turn Unit Unit Nat) := [.request (.register ⟨some "Left", [⟨0⟩], []⟩)]
    let x := (before.mapM carry).final (.empty, .start (fun _ => 0.0) ())
    x.1.isInstance () ⟨0⟩ = false ∧ ((later.mapM carry).final x).1.isInstance () ⟨0⟩ = true := by
  decide +kernel

end Turn

end Lawbook
