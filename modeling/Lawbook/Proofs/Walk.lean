/-
Lawbook/Proofs/Walk.lean

Walks: visits and requests as sequences of settled classes.

A visit of a class that is not there reports that and does nothing else.  A visit of a class with a
record takes it over.  Any other visit goes to the parents in turn and then settles the class
itself.  By induction on the bound, a visit settles classes from which the visited class descends,
leaves the visited class recorded, and yields its record on a first arrival (`visit_passage`).  It
arrives once at the class, and once at each parent of each class that it settles.

`validate_settles` says the same of a whole request, where every arrival at the requested class is
a first one, and `validate_unknown` that a request for a class that is not there leaves all as it
was.
-/
import Lawbook.Proofs.Settlement

namespace Lawbook

open Event

variable {σ α : Type} [Inspectable α]

namespace Hierarchy

variable {h : Hierarchy σ α} {g : Generator σ α} {c : Config} {n : Nat}
variable {id : ClassId} {cls : Class σ α} {w : Verdict} {s t u : Survey σ}

/-! ### The three kinds of visits -/

/-- A class that is not there is reported, and nothing is recorded for it. -/
theorem visit_unknown (hc : h.class? id = none) :
    h.visit g c (n + 1) id s =
      (Verdict.fail (ClassError.unknownClass id).message, s, [reached id]) := by
  simp [visit, hc]

/-- A class with a record is looked up; its laws and its parents are left alone. -/
theorem visit_known (hc : h.class? id = some cls) (hv : s.ledger.verdict? g.id id = some w) :
    h.visit g c (n + 1) id s =
      (recalled cls.name g.name (id ∉ s.visited) w, s.mark id,
        [reached id, logged (.recordFound cls.name g.name)]) := by
  simp [visit, hc, Survey.arrive_apply, Survey.known, hv]

/-- Any other class is visited after its parents, and then recorded with what they and its own laws
come to. -/
theorem visit_fresh (hc : h.class? id = some cls) (hv : s.ledger.verdict? g.id id = none) :
    let above := cls.parents.mapM (h.visit g c n)
    let own := cls.checkLaws id g c
    let t := above.final (s.mark id)
    let v := joined g.name cls.name (above.value (s.mark id)) (own.value t.host)
    h.visit g c (n + 1) id s =
      (v, { t with host := own.final t.host, ledger := t.ledger.record g.id id v },
        reached id :: (above.events (s.mark id) ++ own.events t.host)) := by
  simp only [visit, hc, Run.bind_apply, Survey.arrive_apply, Survey.known, Survey.ledger_mark, hv,
    Run.pure_apply, Run.emit_apply, Survey.onHost, checkOwn, Survey.record, Run.within_apply,
    List.append_nil, List.nil_append, List.singleton_append]
  rfl

/-! ### What a walk leaves behind -/

/-- A walk that arrives at the classes `roots` in turn settles the classes of a plan, from all of
which one of the roots descends, and arrives at the parents of these besides. -/
structure Passage (h : Hierarchy σ α) (g : Generator σ α) (c : Config) (roots : List ClassId)
    (s t : Survey σ) (plan : List ClassId) (es : List (Event α)) : Prop where
  settles : h.Settles g c (s.host, s.ledger) plan (t.host, t.ledger) (work es)
  descends : ∀ d ∈ plan, ∃ p ∈ roots, h.Descends p d
  arrivals_eq : arrivals es = roots.length + h.edgeCount plan

theorem Passage.nil (s : Survey σ) : Passage h g c [] s s [] [] :=
  ⟨.refl, by simp, rfl⟩

/-- Two walks in a row are one walk, from the roots of both. -/
theorem Passage.append {roots roots' plan plan' : List ClassId} {es es' : List (Event α)}
    (hp : Passage h g c roots s t plan es) (hp' : Passage h g c roots' t u plan' es') :
    Passage h g c (roots ++ roots') s u (plan ++ plan') (es ++ es') := by
  refine ⟨?_, ?_, ?_⟩
  · rw [work_append]
    exact hp.settles.trans hp'.settles
  · intro d hd
    rcases List.mem_append.1 hd with hd | hd
    · obtain ⟨p, hp, hpd⟩ := hp.descends d hd
      exact ⟨p, List.mem_append_left _ hp, hpd⟩
    · obtain ⟨p, hp, hpd⟩ := hp'.descends d hd
      exact ⟨p, List.mem_append_right _ hp, hpd⟩
  · rw [arrivals_append, hp.arrivals_eq, hp'.arrivals_eq, List.length_append, edgeCount_append]
    omega

/-- What holds of a visit that returned `v`: it is a passage from the visited class, which is
recorded now, and `v` is the record if this was the first arrival. -/
structure Visited (h : Hierarchy σ α) (g : Generator σ α) (c : Config) (id : ClassId)
    (s t : Survey σ) (v : Verdict) (es : List (Event α)) : Prop where
  passage : ∃ plan, Passage h g c [id] s t plan es
  inherits : h.Inherits g t.ledger id v
  first : id ∉ s.visited → t.ledger.verdict? g.id id = some v

/-- Visits of one class after the other. -/
theorem visitEach_passage
    (hvisit : ∀ id s, id.index < n → id.index < h.size →
      Visited h g c id s ((h.visit g c n id).final s) ((h.visit g c n id).value s)
        ((h.visit g c n id).events s)) :
    ∀ (roots : List ClassId) (s : Survey σ), (∀ p ∈ roots, p.index < n ∧ p.index < h.size) →
      let walk := roots.mapM (h.visit g c n)
      (∃ plan, Passage h g c roots s (walk.final s) plan (walk.events s)) ∧
        List.Forall₂ (h.Inherits g (walk.final s).ledger) roots (walk.value s) := by
  intro roots
  induction roots with
  | nil => exact fun s _ => ⟨⟨[], .nil s⟩, .nil⟩
  | cons p roots ih =>
    intro s hr
    obtain ⟨hp, hroots⟩ := List.forall_mem_cons.1 hr
    obtain ⟨⟨plan, hplan⟩, ⟨first, w, hw, hv⟩, -⟩ := hvisit p s hp.1 hp.2
    obtain ⟨⟨plan', hplan'⟩, hi⟩ := ih ((h.visit g c n p).final s) hroots
    simp only [Run.value_mapM_cons, Run.final_mapM_cons, Run.events_mapM_cons]
    refine ⟨⟨plan ++ plan', hplan.append hplan'⟩, .cons ⟨first, w, ?_, hv⟩ hi⟩
    exact hplan'.settles.keeps hw

/-- A visit of a recorded class settles nothing and takes the record over. -/
theorem visited_of_known (hc : h.class? id = some cls)
    (hv : s.ledger.verdict? g.id id = some w) :
    Visited h g c id s ((h.visit g c (n + 1) id).final s) ((h.visit g c (n + 1) id).value s)
      ((h.visit g c (n + 1) id).events s) := by
  have he := visit_known (g := g) (c := c) (n := n) hc hv
  rw [Run.final, Run.value, Run.events, he]
  dsimp only
  refine ⟨⟨[], ?_, by simp, rfl⟩, ⟨decide (id ∉ s.visited), w, ?_, ?_⟩, ?_⟩
  · rw [Survey.host_mark, Survey.ledger_mark]
    exact .refl
  · rw [Survey.ledger_mark, hv]
  · rw [nameOf_eq hc]
  · intro hm
    rw [Survey.ledger_mark, decide_eq_true hm, recalled_true, hv]

/-- A walk to the parents of a class does not settle the class itself. -/
theorem Passage.not_mem {plan : List ClassId} {es : List (Event α)} (hc : h.class? id = some cls)
    (hp : Passage h g c cls.parents s t plan es) : id ∉ plan := by
  intro hm
  obtain ⟨p, hpar, hd⟩ := hp.descends id hm
  have hlt := h.parents_lt _ _ hc p hpar
  exact Nat.lt_irrefl _ (Nat.lt_of_le_of_lt hd.index_le hlt)

/-- A visit of a class without a record settles the class behind what the visits of its parents
settle. -/
theorem visited_of_fresh {plan : List ClassId} (hc : h.class? id = some cls)
    (hv : s.ledger.verdict? g.id id = none)
    (hp : Passage h g c cls.parents (s.mark id)
      ((cls.parents.mapM (h.visit g c n)).final (s.mark id)) plan
      ((cls.parents.mapM (h.visit g c n)).events (s.mark id)))
    (hi : List.Forall₂
      (h.Inherits g ((cls.parents.mapM (h.visit g c n)).final (s.mark id)).ledger) cls.parents
      ((cls.parents.mapM (h.visit g c n)).value (s.mark id))) :
    Visited h g c id s ((h.visit g c (n + 1) id).final s) ((h.visit g c (n + 1) id).value s)
      ((h.visit g c (n + 1) id).events s) := by
  have he := visit_fresh (g := g) (c := c) (n := n) hc hv
  rw [Run.final, Run.value, Run.events, he]
  dsimp only
  have hsettles := hp.settles
  rw [Survey.host_mark, Survey.ledger_mark] at hsettles
  -- the visits of the parents leave the class without a record, so that it is recorded now
  have hnone : ((cls.parents.mapM (h.visit g c n)).final (s.mark id)).ledger.verdict? g.id id
      = none := by
    rw [← Option.not_isSome_iff_eq_none, hsettles.isSome_iff, hv]
    simpa using hp.not_mem hc
  have hrec := fun v => Ledger.verdict?_record_self hnone v
  refine ⟨⟨plan ++ [id], ?_, ?_, ?_⟩, ⟨true, _, hrec _, rfl⟩, fun _ => hrec _⟩
  · rw [work_reached_cons, work_append]
    exact hsettles.snoc hc hnone hi
  · intro d hd
    refine ⟨id, List.mem_singleton.2 rfl, ?_⟩
    rcases List.mem_append.1 hd with hd | hd
    · obtain ⟨p, hpar, hpd⟩ := hp.descends d hd
      exact .of_parent (parentsOf_eq hc ▸ hpar) hpd
    · exact List.mem_singleton.1 hd ▸ .refl
  · rw [arrivals_reached_cons, arrivals_append, hp.arrivals_eq, Class.arrivals_checkLaws,
      edgeCount_append, edgeCount_singleton, parentsOf_eq hc, List.length_singleton]
    omega

/-- **Every visit settles classes one after the other.** -/
theorem visit_passage : ∀ (n : Nat) (id : ClassId) (s : Survey σ), id.index < n →
    id.index < h.size →
      Visited h g c id s ((h.visit g c n id).final s) ((h.visit g c n id).value s)
        ((h.visit g c n id).events s) := by
  intro n
  induction n with
  | zero => exact fun id s hn _ => absurd hn (Nat.not_lt_zero _)
  | succ n ih =>
    intro id s hn hid
    obtain ⟨cls, hc⟩ := exists_class?_of_lt hid
    cases hv : s.ledger.verdict? g.id id with
    | some w => exact visited_of_known hc hv
    | none =>
      have hparents : ∀ p ∈ cls.parents, p.index < n ∧ p.index < h.size := by
        intro p hp
        have hlt := h.parents_lt _ _ hc p hp
        omega
      obtain ⟨⟨plan, hp⟩, hi⟩ := visitEach_passage ih cls.parents (s.mark id) hparents
      exact visited_of_fresh hc hv hp hi

end Hierarchy

/-! ### Requests -/

namespace Registry

open Hierarchy

variable (r : Registry σ α) (id : ClassId) (g : Generator σ α) (c : Config) (s : σ)

/-- A request is a visit with fresh marks, and a notice of what it came to. -/
theorem validate_eq :
    r.validate id g c s =
      let walk := r.hierarchy.visit g c (id.index + 1) id ⟨s, r.ledger, []⟩
      ((walk.1, { r with ledger := walk.2.1.ledger }), walk.2.1.host,
        walk.2.2 ++ [.logged (r.closing id g walk.1)]) := rfl

/-- A request for a class that is not there leaves the registry and the host as they were. -/
theorem validate_unknown (hid : ¬ id.index < r.hierarchy.size) :
    r.validate id g c s =
      ((Verdict.fail (ClassError.unknownClass id).message, r), s,
        [reached id, logged (r.closing id g
          (Verdict.fail (ClassError.unknownClass id).message))]) := by
  rw [validate_eq, visit_unknown (class?_eq_none_of_not_lt hid)]
  rfl

/-- What a request for a registered class comes to. -/
structure Validated (r r' : Registry σ α) (id : ClassId) (g : Generator σ α) (c : Config)
    (s s' : σ) (v : Verdict) (plan : List ClassId) (es : List (Event α)) : Prop where
  hierarchy_eq : r'.hierarchy = r.hierarchy
  settles : r.hierarchy.Settles g c (s, r.ledger) plan (s', r'.ledger) (work es)
  descends : ∀ d ∈ plan, r.hierarchy.Descends id d
  recorded : r'.ledger.verdict? g.id id = some v
  arrivals_eq : arrivals es = 1 + r.hierarchy.edgeCount plan

/-- **A request settles classes one after the other**, and returns the record of the requested
class. -/
theorem validate_settles (hid : id.index < r.hierarchy.size) :
    ∃ plan, Validated r ((r.validate id g c).value s).2 id g c s ((r.validate id g c).final s)
      ((r.validate id g c).value s).1 plan ((r.validate id g c).events s) := by
  obtain ⟨⟨plan, hplan⟩, -, hfirst⟩ := visit_passage (h := r.hierarchy) (g := g) (c := c)
    (id.index + 1) id ⟨s, r.ledger, []⟩ (Nat.lt_succ_self _) hid
  refine ⟨plan, rfl, ?_, ?_, hfirst List.not_mem_nil, ?_⟩
  · have hs := hplan.settles
    rw [Run.events, validate_eq, work_append]
    exact (List.append_nil (work _)).symm ▸ hs
  · intro d hd
    obtain ⟨p, hp, hpd⟩ := hplan.descends d hd
    exact List.mem_singleton.1 hp ▸ hpd
  · have ha := hplan.arrivals_eq
    rw [Run.events, validate_eq, arrivals_append]
    exact ha

end Registry

end Lawbook
