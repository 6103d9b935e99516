/-
Lawbook/Proofs/Validations.lean

The validations of a run: each request that validates a class, with the registry and the host state
that it meets.

All work of a run is done in one of its validations (`Desk.exists_validation_of_mem_history`), and a
validation opens classes for its own generator and with its own skip switch only
(`Validation.of_mem_opened`).  So what the events of a run tell about a class can be traced back to
a request.
-/
import Lawbook.Proofs.Requests

namespace Lawbook

open Event

variable {κ σ α : Type} [Inspectable α]

/-! ### Validations -/

/-- A validation of a class, with the registry and the host state that it meets. -/
structure Validation (σ α : Type) where
  registry : Registry σ α
  host : σ
  id : ClassId
  generator : Generator σ α
  config : Config

namespace Validation

/-- What a validation returns. -/
def verdict (x : Validation σ α) : Verdict :=
  ((x.registry.validate x.id x.generator x.config).value x.host).1

/-- What a validation reports on the way. -/
def events (x : Validation σ α) : List (Event α) :=
  (x.registry.validate x.id x.generator x.config).events x.host

/-- The registry that a validation leaves behind. -/
def result (x : Validation σ α) : Registry σ α :=
  ((x.registry.validate x.id x.generator x.config).value x.host).2

/-- The host state that a validation leaves behind. -/
def final (x : Validation σ α) : σ :=
  (x.registry.validate x.id x.generator x.config).final x.host

end Validation

/-- A validation opens classes for its own generator, with its own skip switch. -/
theorem Validation.of_mem_opened {x : Validation σ α} {d : ClassId} {k : GeneratorId} {b : Bool}
    (ho : opened d k b ∈ x.events) : x.generator.id = k ∧ x.config.skip = b := by
  unfold events at ho
  by_cases hid : x.id.index < x.registry.hierarchy.size
  · obtain ⟨plan, hp⟩ := Registry.validate_settles x.registry x.id x.generator x.config x.host hid
    rw [← mem_openings_iff, ← openings_work, hp.settles.openings_eq] at ho
    split at ho
    · next hk => exact ⟨hk.2, (List.mem_singleton.1 ho).symm⟩
    · exact absurd ho List.not_mem_nil
  · rw [Run.events, Registry.validate_unknown _ _ _ _ _ hid] at ho
    simp at ho

/-! ### The validations of a run -/

omit [Inspectable α] in
/-- The classes after a request: one more if a class joins. -/
def Request.joins (q : Request κ σ α) (h : Hierarchy σ α) : Hierarchy σ α :=
  match q with
  | register d =>
    match h.register d with
    | .error _ => h
    | .ok h' => h'
  | _ => h

/-- The host after a request without a validation. -/
def Request.step : Request κ σ α → σ → σ
  | proceed step => step
  | _ => id

namespace Desk

variable [DecidableEq κ]

/-- The validation that a request asks for, if it does.  An enrollment for a class that is not there
is turned down before. -/
def validation? (desk : Desk κ σ α) (s : σ) : Request κ σ α → Option (Validation σ α)
  | .validate id g c => some ⟨desk.registry, s, id, g, c⟩
  | .enroll _ id g c =>
    if id.index < desk.registry.hierarchy.size then some ⟨desk.registry, s, id, g, c⟩ else none
  | _ => none

/-- The validations of several requests, in order. -/
def validationsOf (desk : Desk κ σ α) (s : σ) : List (Request κ σ α) → List (Validation σ α)
  | [] => []
  | q :: qs =>
    (desk.validation? s q).toList ++
      validationsOf ((desk.answer q).value s) ((desk.answer q).final s) qs

/-- The validations of a run on an empty desk. -/
def validations (qs : List (Request κ σ α)) (s : σ) : List (Validation σ α) :=
  empty.validationsOf s qs

variable {desk : Desk κ σ α} {s : σ} {e : Event α} {x : Validation σ α}

omit [Inspectable α] [DecidableEq κ] in
/-- A validation is made on the generator and with the configuration of the request. -/
theorem asks?_of_validation? {q : Request κ σ α} {x : Validation σ α}
    (hx : desk.validation? s q = some x) : q.asks? = some (x.generator, x.config) := by
  cases q with
  | validate id g c =>
    cases hx
    rfl
  | enroll key id g c =>
    obtain ⟨-, ⟨⟩⟩ := Option.ite_none_right_eq_some.1 hx
    rfl
  | _ => cases hx

/-- A request with a validation does to the registry and to the host what the validation does. -/
theorem answer_of_validation? {q : Request κ σ α} (hx : desk.validation? s q = some x) :
    x.registry = desk.registry ∧ x.host = s ∧ ((desk.answer q).value s).registry = x.result ∧
      (desk.answer q).final s = x.final := by
  cases q with
  | validate id g c =>
    cases hx
    exact ⟨rfl, rfl, rfl, rfl⟩
  | enroll key id g c =>
    obtain ⟨hid, hx⟩ := Option.ite_none_right_eq_some.1 hx
    cases hx
    obtain ⟨cls, hc⟩ := Hierarchy.exists_class?_of_lt hid
    have hfind : desk.registry.hierarchy.find id = .ok cls := by rw [Hierarchy.find, hc]
    refine ⟨rfl, rfl, ?_⟩
    simp only [answer, InstanceTable.enroll, hfind, Run.value_bind, Run.final_bind,
      Validation.result, Validation.final]
    generalize (desk.registry.validate id g c).value s = result
    obtain ⟨verdict, r⟩ := result
    cases verdict <;> exact ⟨rfl, rfl⟩
  | _ => cases hx

/-- A request without a validation makes no record: a class may join, and the host may go on. -/
theorem answer_of_validation?_eq_none {q : Request κ σ α} (hn : desk.validation? s q = none) :
    ((desk.answer q).value s).registry = ⟨q.joins desk.registry.hierarchy, desk.registry.ledger⟩ ∧
      (desk.answer q).final s = q.step s := by
  cases q with
  | proceed step => exact ⟨rfl, rfl⟩
  | register d =>
    simp only [answer, Run.value_bind, Run.final_bind, Registry.register, Request.joins]
    cases desk.registry.hierarchy.register d <;> exact ⟨rfl, rfl⟩
  | validate id g c => cases hn
  | declare key id => exact ⟨rfl, rfl⟩
  | enroll key id g c =>
    have hid : ¬ id.index < desk.registry.hierarchy.size := by
      intro hid
      rw [validation?, if_pos hid] at hn
      cases hn
    have hfind : desk.registry.hierarchy.find id = .error (.unknownClass id) := by
      rw [Hierarchy.find, Hierarchy.class?_eq_none_of_not_lt hid]
    simp only [answer, InstanceTable.enroll, hfind]
    exact ⟨rfl, rfl⟩

/-- The work of a request is done in its validation. -/
theorem exists_validation?_of_mem (q : Request κ σ α) (he : e ∈ (desk.answer q).events s)
    (hw : e.isWork) : ∃ x, desk.validation? s q = some x ∧ e ∈ x.events := by
  cases q with
  | proceed step => exact absurd he List.not_mem_nil
  | register d =>
    rw [answer, Run.events_bind, Run.events_pure, List.append_nil] at he
    unfold Registry.register at he
    cases hd : desk.registry.hierarchy.register d with
    | error error =>
      rw [hd] at he
      exact absurd he List.not_mem_nil
    | ok h =>
      -- a registration is logged, and that is not work
      rw [hd] at he
      obtain rfl := List.mem_singleton.1 he
      cases hw
  | validate id g c =>
    rw [answer, Run.events_bind, Run.events_pure, List.append_nil] at he
    exact ⟨_, rfl, he⟩
  | declare key id => exact absurd he List.not_mem_nil
  | enroll key id g c =>
    rw [answer, Run.events_bind, Run.events_pure, List.append_nil] at he
    unfold InstanceTable.enroll Hierarchy.find at he
    cases hc : desk.registry.hierarchy.class? id with
    | none =>
      rw [hc] at he
      exact absurd he List.not_mem_nil
    | some cls =>
      rw [hc, Run.events_bind] at he
      refine ⟨_, if_pos (Hierarchy.lt_size_of_class? hc), ?_⟩
      rcases List.mem_append.1 he with he | he
      · exact he
      · revert he
        generalize (desk.registry.validate id g c).value s = result
        obtain ⟨verdict, r⟩ := result
        cases verdict <;> exact fun he => absurd he List.not_mem_nil

/-- **The work of several requests is done in their validations.** -/
theorem exists_validation_of_mem (qs : List (Request κ σ α)) (he : e ∈ (desk.serve qs).events s)
    (hw : e.isWork) : ∃ x ∈ desk.validationsOf s qs, e ∈ x.events := by
  induction qs generalizing desk s with
  | nil => exact absurd he List.not_mem_nil
  | cons q qs ih =>
    rw [serve, List.foldlM_cons, Run.events_bind] at he
    rcases List.mem_append.1 he with he | he
    · obtain ⟨x, hx, hex⟩ := exists_validation?_of_mem q he hw
      exact ⟨x, List.mem_append_left _ (Option.mem_toList.2 hx), hex⟩
    · obtain ⟨x, hx, hex⟩ := ih he
      exact ⟨x, List.mem_append_right _ hx, hex⟩

/-- The work of a run is done in its validations. -/
theorem exists_validation_of_mem_history {qs : List (Request κ σ α)} (he : e ∈ history qs s)
    (hw : e.isWork) : ∃ x ∈ validations qs s, e ∈ x.events :=
  exists_validation_of_mem qs he hw

/-- The classes that a validation finds stay. -/
theorem grows_of_mem_validationsOf (qs : List (Request κ σ α))
    (hx : x ∈ desk.validationsOf s qs) :
    x.registry.hierarchy.Grows ((desk.serve qs).value s).registry.hierarchy := by
  induction qs generalizing desk s with
  | nil => exact absurd hx List.not_mem_nil
  | cons q qs ih =>
    rcases List.mem_append.1 hx with hx | hx
    · obtain ⟨hr, -⟩ := answer_of_validation? (Option.mem_toList.1 hx)
      rw [hr]
      exact (desk.serve_onward s (q :: qs)).grows
    · exact ih hx

/-- The classes that a validation of a run finds stay. -/
theorem grows_of_mem_validations {qs : List (Request κ σ α)} (hx : x ∈ validations qs s) :
    x.registry.hierarchy.Grows (after qs s).registry.hierarchy :=
  grows_of_mem_validationsOf qs hx

end Desk

end Lawbook
