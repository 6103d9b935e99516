/-
Lawbook/Proofs/Apart.lean

Apart: generators do not interfere with each other.

All generators are validated on one registry, and the requests of a run come in any order.  Let a
part of the host belong to one generator, so that its handles depend on this part only and nobody
else touches it.  Then the requests on other generators can be deleted from the run.  The requests
that stay return and report the same, and the records of the generator are the same before and after
each of them.

The two runs are compared step by step.  What they have in common is `Registry.Agree`: a request
that stays takes agreeing desks to agreeing desks (`Desk.answer_agree`), and a request that is
deleted takes the one desk to one that agrees with it (`Desk.answer_spared`).  By induction over the
requests, the validations that stay are those of the shorter run, one by one (`Desk.serve_apart`).

Main result: `Desk.generators_apart`.
-/
import Lawbook.Proofs.Confined
import Lawbook.Proofs.Validations

namespace Lawbook

open Run

variable {κ σ τ α : Type}

/-! ### Requests that keep apart -/

/-- A request leaves the part `mine` of the host to the generator `k`. -/
def Request.Respects (mine : σ → τ) (k : GeneratorId) : Request κ σ α → Prop
  | .proceed step => ∀ s t, mine s = mine t → mine (step s) = mine (step t)
  | .register d => ∀ law ∈ d.laws.leaves, law.Respects mine
  | .validate _ g _ => g.Respects mine k
  | .declare _ _ => True
  | .enroll _ _ g _ => g.Respects mine k

/-- Whether a request is made on the generator, or on none. -/
def Request.concerns (k : GeneratorId) (q : Request κ σ α) : Bool :=
  match q.asks? with
  | some (g, _) => g.id = k
  | none => true

theorem Hierarchy.respects_empty (mine : σ → τ) :
    (Hierarchy.empty : Hierarchy σ α).Respects mine := by
  intro id cls hc
  cases hc

/-- A class whose predicates leave `mine` alone may join. -/
theorem Hierarchy.Respects.register {mine : σ → τ} {h h' : Hierarchy σ α} {d : Draft σ α}
    (hh : h.Respects mine) (hd : ∀ law ∈ d.laws.leaves, law.Respects mine)
    (hr : h.register d = .ok h') : h'.Respects mine := by
  intro id cls hc
  rcases class?_of_register hr hc with rfl | hold
  · exact hd
  · exact hh id cls hold

theorem Hierarchy.Respects.joins {mine : σ → τ} {k : GeneratorId} {h : Hierarchy σ α}
    {q : Request κ σ α} (hh : h.Respects mine) (hq : q.Respects mine k) :
    (q.joins h).Respects mine := by
  cases q with
  | register d =>
    unfold Request.joins
    dsimp only
    cases hr : h.register d with
    | error e => exact hh
    | ok h' => exact hh.register hq hr
  | _ => exact hh

variable [Inspectable α]

/-! ### Pairs of validations -/

/-- The same validation in two runs, as far as the generator `k` is concerned. -/
structure Validation.Twin (mine : σ → τ) (k : GeneratorId) (x x' : Validation σ α) : Prop where
  id_eq : x.id = x'.id
  generator_eq : x.generator = x'.generator
  config_eq : x.config = x'.config
  /-- Both return the same, with all texts. -/
  verdict_eq : x.verdict = x'.verdict
  /-- Both ask for the same values, call the same predicates, and report the same besides. -/
  events_eq : x.events = x'.events
  /-- The same is recorded for the generator before, and the same classes are there. -/
  before : Registry.Agree mine k x.registry x.host x'.registry x'.host
  /-- The same is recorded for the generator afterwards. -/
  after : Registry.Agree mine k x.result x.final x'.result x'.final

namespace Desk

variable [DecidableEq κ]

/-- Two desks with their host states agree. -/
def Agree (mine : σ → τ) (k : GeneratorId) (desk : Desk κ σ α) (s : σ) (desk' : Desk κ σ α)
    (s' : σ) : Prop :=
  Registry.Agree mine k desk.registry s desk'.registry s'

variable {mine : σ → τ} {k : GeneratorId} {desk desk' : Desk κ σ α} {s s' : σ}

omit [Inspectable α] [DecidableEq κ] in
theorem concerns_of_validation? {q : Request κ σ α} {x : Validation σ α}
    (hx : desk.validation? s q = some x) : q.concerns k = decide (x.generator.id = k) := by
  rw [Request.concerns, asks?_of_validation? hx]

omit [Inspectable α] [DecidableEq κ] in
/-- The validations on the generator are those of the requests that concern it. -/
theorem filter_validation? (desk : Desk κ σ α) (s : σ) (q : Request κ σ α) :
    (desk.validation? s q).toList.filter (fun x => x.generator.id = k) =
      if q.concerns k then (desk.validation? s q).toList else [] := by
  cases hx : desk.validation? s q with
  | none => split <;> rfl
  | some x =>
    rw [concerns_of_validation? hx]
    exact List.filter_cons

omit [Inspectable α] [DecidableEq κ] in
theorem respects_of_validation? {q : Request κ σ α} {x : Validation σ α}
    (hx : desk.validation? s q = some x) (hq : q.Respects mine k) :
    x.generator.Respects mine k := by
  cases q with
  | validate id g c =>
    cases hx
    exact hq
  | enroll key id g c =>
    obtain ⟨-, ⟨⟩⟩ := Option.ite_none_right_eq_some.1 hx
    exact hq
  | _ => cases hx

omit [Inspectable α] [DecidableEq κ] in
/-- On desks with the same classes, a request asks for the same validation. -/
theorem validation?_of_agree (ha : Agree mine k desk s desk' s') (q : Request κ σ α) :
    desk'.validation? s' q =
      (desk.validation? s q).map fun x => { x with registry := desk'.registry, host := s' } := by
  cases q with
  | enroll key id g c =>
    have hsize : desk.registry.hierarchy.size = desk'.registry.hierarchy.size :=
      congrArg Hierarchy.size ha.hierarchy_eq
    simp only [validation?, ← hsize]
    split <;> rfl
  | _ => rfl

/-! ### One request -/

/-- After a request that leaves `mine` alone, all predicates still do. -/
theorem respects_answer {q : Request κ σ α} (hh : desk.registry.hierarchy.Respects mine)
    (hq : q.Respects mine k) : ((desk.answer q).value s).registry.hierarchy.Respects mine := by
  cases hx : desk.validation? s q with
  | some x =>
    obtain ⟨hr, -, hresult, -⟩ := answer_of_validation? hx
    rw [hresult]
    show x.registry.hierarchy.Respects mine
    rw [hr]
    exact hh
  | none =>
    rw [(answer_of_validation?_eq_none hx).1]
    exact hh.joins hq

/-- **A request that stays** takes agreeing desks to agreeing desks, and its validations on both are
twins. -/
theorem answer_agree {q : Request κ σ α} (hh : desk.registry.hierarchy.Respects mine)
    (hq : q.Respects mine k) (hk : q.concerns k) (ha : Agree mine k desk s desk' s') :
    Agree mine k ((desk.answer q).value s) ((desk.answer q).final s)
        ((desk'.answer q).value s') ((desk'.answer q).final s') ∧
      List.Forall₂ (Validation.Twin mine k) (desk.validation? s q).toList
        (desk'.validation? s' q).toList := by
  have hx' := validation?_of_agree ha q
  unfold Agree
  cases hx : desk.validation? s q with
  | none =>
    rw [hx] at hx'
    obtain ⟨hregistry, hfinal⟩ := answer_of_validation?_eq_none hx
    obtain ⟨hregistry', hfinal'⟩ := answer_of_validation?_eq_none hx'
    rw [hregistry, hregistry', hfinal, hfinal', hx']
    -- a class joins on both sides or on none, and the host goes on alike
    refine ⟨⟨congrArg q.joins ha.hierarchy_eq, ha.page_eq, ?_⟩, .nil⟩
    cases q with
    | proceed step => exact hq s s' ha.mine_eq
    | _ => exact ha.mine_eq
  | some x =>
    rw [hx] at hx'
    obtain ⟨hr, hs, hregistry, hfinal⟩ := answer_of_validation? hx
    obtain ⟨-, -, hregistry', hfinal'⟩ := answer_of_validation? hx'
    have hid : x.generator.id = k := by
      rw [concerns_of_validation? hx] at hk
      exact of_decide_eq_true hk
    have hbefore : Registry.Agree mine k x.registry x.host desk'.registry s' := by
      rw [hr, hs]
      exact ha
    obtain ⟨hverdict, hevents, hafter⟩ := Registry.validate_confined (hr ▸ hh)
      (respects_of_validation? hx hq) hid hbefore x.id x.config
    rw [hregistry, hregistry', hfinal, hfinal', hx']
    exact ⟨hafter, .cons ⟨rfl, rfl, rfl, hverdict, hevents, hbefore, hafter⟩ .nil⟩

/-- **A request that is deleted** leaves a desk that agrees with the one before. -/
theorem answer_spared {q : Request κ σ α} (hh : desk.registry.hierarchy.Respects mine)
    (hq : q.Respects mine k) (hk : ¬ q.concerns k) :
    Agree mine k desk s ((desk.answer q).value s) ((desk.answer q).final s) := by
  unfold Agree
  cases hx : desk.validation? s q with
  | none =>
    obtain ⟨hregistry, hfinal⟩ := answer_of_validation?_eq_none hx
    rw [hregistry, hfinal]
    -- that leaves an enrollment for a class that is not there, which ends before any check
    cases q with
    | enroll key id g c => exact ⟨rfl, rfl, rfl⟩
    | validate id g c => cases hx
    | _ => exact absurd rfl hk
  | some x =>
    obtain ⟨hr, hs, hregistry, hfinal⟩ := answer_of_validation? hx
    have hid : x.generator.id ≠ k := by
      rw [concerns_of_validation? hx] at hk
      exact fun hid => hk (decide_eq_true hid)
    rw [hregistry, hfinal, ← hr, ← hs]
    exact Registry.validate_spares (hr ▸ hh) (respects_of_validation? hx hq) hid x.id x.config
      x.host

/-! ### Runs -/

/-- **The validations on one generator are those of the run without the requests on others.** -/
theorem serve_apart (qs : List (Request κ σ α)) (hqs : ∀ q ∈ qs, q.Respects mine k)
    (hh : desk.registry.hierarchy.Respects mine) (ha : Agree mine k desk s desk' s') :
    List.Forall₂ (Validation.Twin mine k)
        ((desk.validationsOf s qs).filter fun x => x.generator.id = k)
        (desk'.validationsOf s' (qs.filter (Request.concerns k))) ∧
      Agree mine k ((desk.serve qs).value s) ((desk.serve qs).final s)
        ((desk'.serve (qs.filter (Request.concerns k))).value s')
        ((desk'.serve (qs.filter (Request.concerns k))).final s') := by
  -- the shorter run waits while the longer one carries a deleted request out, so only agreement of
  -- the two desks can be kept, and not equality
  induction qs generalizing desk s desk' s' with
  | nil => exact ⟨.nil, ha⟩
  | cons q qs ih =>
    obtain ⟨hq, hqs⟩ := List.forall_mem_cons.1 hqs
    have hnext := respects_answer (s := s) hh hq
    rw [validationsOf, List.filter_append, filter_validation?]
    by_cases hk : q.concerns k
    · obtain ⟨hagree, htwins⟩ := answer_agree hh hq hk ha
      obtain ⟨hrest, hfinal⟩ := ih hqs hnext hagree
      rw [List.filter_cons_of_pos hk, validationsOf, if_pos hk]
      exact ⟨List.rel_append htwins hrest, hfinal⟩
    · have hspared := answer_spared (s := s) hh hq hk
      obtain ⟨hrest, hfinal⟩ := ih hqs hnext (hspared.symm.trans ha)
      rw [List.filter_cons_of_neg hk, if_neg hk]
      exact ⟨hrest, hfinal⟩

/-- **Generators do not interfere.**  In any run of operations, let a part of the host belong to the
generator `k`: its handles depend on this part only, nobody else touches it, and all predicates say
the same in all states of the host.  If the requests on other generators are deleted, then the
validations on `k` are the same as before, one by one: they return the same verdicts, make the same
calls in the same order, and find and leave the same records for `k`.  In the end as well, the
classes and the records for `k` are the same. -/
theorem generators_apart (mine : σ → τ) (k : GeneratorId) (qs : List (Request κ σ α)) (s : σ)
    (hqs : ∀ q ∈ qs, q.Respects mine k) :
    List.Forall₂ (Validation.Twin mine k)
        ((validations qs s).filter fun x => x.generator.id = k)
        (validations (qs.filter (Request.concerns k)) s) ∧
      (after qs s).registry.hierarchy =
        (after (qs.filter (Request.concerns k)) s).registry.hierarchy ∧
      (after qs s).registry.ledger.pageOf k =
        (after (qs.filter (Request.concerns k)) s).registry.ledger.pageOf k := by
  have hempty : Agree mine k (empty : Desk κ σ α) s empty s := ⟨rfl, rfl, rfl⟩
  obtain ⟨htwins, hfinal⟩ := serve_apart qs hqs (Hierarchy.respects_empty mine) hempty
  exact ⟨htwins, hfinal.hierarchy_eq, hfinal.page_eq⟩

end Desk

/-! ### Two counters in one host -/

namespace Counters

/-- Yields the number of the first counter and advances it. -/
def left : Generator (Nat × Nat) Nat :=
  ⟨⟨0⟩, "Left", fun _ s => (.ok s.1, (s.1 + 1, s.2))⟩

/-- Yields the number of the second counter and advances it. -/
def right : Generator (Nat × Nat) Nat :=
  ⟨⟨1⟩, "Right", fun _ s => (.ok s.2, (s.1, s.2 + 1))⟩

/-- The law that a number is at most one. -/
def small : Law (Nat × Nat) Nat :=
  ⟨"small", 1, fun values => pure (values.all fun n => n ≤ 1)⟩

/-- Both counters are checked against one class, the second one first. -/
def requests : List (Request Unit (Nat × Nat) Nat) :=
  [.register ⟨some "Small", [], [.obeys small]⟩,
   .validate ⟨0⟩ right ⟨3, false, .ambient⟩,
   .validate ⟨0⟩ left ⟨2, false, .ambient⟩]

/-- The first counter passes, before and after the check in which the second one fails and moves on
is deleted. -/
theorem left_apart :
    (Desk.validations requests (0, 0)).map (fun x => (x.host, x.verdict.isSuccess)) =
        [((0, 0), false), ((0, 3), true)] ∧
      List.Forall₂ (Validation.Twin Prod.fst left.id)
        ((Desk.validations requests (0, 0)).filter fun x => x.generator.id = left.id)
        (Desk.validations (requests.filter (Request.concerns left.id)) (0, 0)) ∧
      (Desk.validations (requests.filter (Request.concerns left.id)) (0, 0)).map
        (fun x => (x.host, x.verdict.isSuccess)) = [((0, 0), true)] := by
  have hsmall : small.Respects (Prod.fst : Nat × Nat → Nat) :=
    ⟨fun _ _ _ => rfl, fun _ _ => rfl⟩
  have hleft : left.Respects Prod.fst left.id := by
    unfold Generator.Respects
    rw [if_pos rfl]
    rintro i ⟨a, b⟩ ⟨a', b'⟩ ⟨⟩
    exact ⟨rfl, rfl, rfl⟩
  have hright : right.Respects Prod.fst left.id := by
    unfold Generator.Respects
    rw [if_neg (by decide)]
    exact fun i s => rfl
  refine ⟨by decide +kernel, (Desk.generators_apart Prod.fst left.id requests (0, 0) ?_).1,
    by decide +kernel⟩
  intro q hq
  simp only [requests, List.mem_cons, List.not_mem_nil, or_false] at hq
  rcases hq with rfl | rfl | rfl
  · intro law hl
    obtain rfl := List.mem_singleton.1 hl
    exact hsmall
  · exact hright
  · exact hleft

end Counters

end Lawbook
