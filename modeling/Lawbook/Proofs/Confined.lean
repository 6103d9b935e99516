/-
Lawbook/Proofs/Confined.lean

Confined runs: runs that see and touch only a part of the host.

A view of a state keeps a part of it.  A run is confined to a view if what it yields, what it
reports and what it leaves there depend on the view only; it spares a view if it leaves it as it
was.  Both properties are inherited: a run has them as soon as its parts do (`Run.Inherited`).  So
one argument for all inherited properties goes through a check (`Constraint.inherited_check`) and
one through a walk (`Hierarchy.inherited_visit`).

Main results: a request on a generator that is confined to a view is confined to the view and to the
records of that generator (`Registry.validate_confined`); a request on another generator, which
spares the view, spares the records as well (`Registry.validate_spares`).
-/
import Lawbook.Proofs.Walk

namespace Lawbook

variable {σ τ ε α β γ : Type}

/-! ### Inherited properties of runs -/

namespace Run

/-- A run has the property as soon as its parts do. -/
structure Inherited (P : (β : Type) → Run σ ε β → Prop) : Prop where
  pure : ∀ {β : Type} (b : β), P β (Pure.pure b)
  emit : ∀ e : ε, P Unit (Run.emit e)
  bind : ∀ {β γ : Type} {m : Run σ ε β} {f : β → Run σ ε γ},
    P β m → (∀ b, P γ (f b)) → P γ (m >>= f)

section Inherited

variable {P : (β : Type) → Run σ ε β → Prop}

theorem Inherited.map (hP : Inherited P) {m : Run σ ε β} (hm : P β m) (f : β → γ) :
    P γ (f <$> m) := by
  rw [← bind_pure_comp]
  exact hP.bind hm fun b => hP.pure (f b)

/-- What sequences inherit, series inherit: by induction on the list. -/
theorem Inherited.mapM (hP : Inherited P) {f : β → Run σ ε γ} (hf : ∀ b, P γ (f b))
    (bs : List β) : P (List γ) (bs.mapM f) := by
  induction bs with
  | nil => exact hP.pure []
  | cons b bs ih =>
    rw [List.mapM_cons]
    exact hP.bind (hf b) fun c => hP.bind ih fun cs => hP.pure (c :: cs)

end Inherited

/-- The run depends on a view of the state only, in what it yields, reports, and leaves there. -/
def Confined (view : σ → τ) (m : Run σ ε β) : Prop :=
  ∀ s t, view s = view t →
    m.value s = m.value t ∧ m.events s = m.events t ∧ view (m.final s) = view (m.final t)

/-- The run leaves a view of the state as it was. -/
def Spares (view : σ → τ) (m : Run σ ε β) : Prop :=
  ∀ s, view (m.final s) = view s

variable {view : σ → τ}

/-- To see a part of the state only, and to leave the same there, is inherited: the first run leaves
the part alike, so the second one sees the same. -/
theorem inherited_confined (view : σ → τ) :
    Inherited (fun β (m : Run σ ε β) => Confined view m) where
  pure := fun b s t hst => ⟨rfl, rfl, hst⟩
  emit := fun e s t hst => ⟨rfl, rfl, hst⟩
  bind := by
    intro β γ m f hm hf s t hst
    obtain ⟨hvalue, hevents, hfinal⟩ := hm s t hst
    obtain ⟨hvalue', hevents', hfinal'⟩ := hf (m.value s) _ _ hfinal
    rw [value_bind, value_bind, events_bind, events_bind, final_bind, final_bind, ← hvalue]
    refine ⟨hvalue', ?_, hfinal'⟩
    rw [hevents, hevents']

/-- To leave a part of the state alone is inherited. -/
theorem inherited_spares (view : σ → τ) :
    Inherited (fun β (m : Run σ ε β) => Spares view m) where
  pure := fun b s => rfl
  emit := fun e s => rfl
  bind := by
    intro β γ m f hm hf s
    rw [final_bind]
    exact (hf _ _).trans (hm s)

end Run

open Event Run

/-! ### Checks -/

section Checks

variable {P : (β : Type) → Run σ (Event α) β → Prop} (hP : Inherited P) {g : Generator σ α}
variable (hg : ∀ i, P _ (host (g.get i)))

include hP hg

/-- A sample only asks the generator, so it inherits what all its answers have. -/
theorem Generator.inherited_sample (i n : Nat) : P _ (g.sample i n) := by
  induction n with
  | zero => exact hP.pure _
  | succ n ih =>
    refine hP.bind (hP.bind (hP.emit _) fun _ => hg i) fun r => ?_
    cases r with
    | error e => exact hP.pure _
    | ok a => exact hP.map ih _

variable [Inspectable α]

/-- A round asks the generator and calls the predicate. -/
theorem Law.inherited_round {law : Law σ α} (hl : ∀ values, P _ (host (law.predicate values)))
    (i : Nat) : P _ (law.round g i) := by
  refine hP.bind (Generator.inherited_sample hP hg i law.arity) fun sample => ?_
  cases sample with
  | cut values error => exact hP.bind (hP.emit _) fun _ => hP.pure _
  | complete values =>
    refine hP.bind (hP.bind (hP.emit _) fun _ => hl values) fun r => ?_
    cases law.finding values r with
    | none => exact hP.pure _
    | some verdict => exact hP.bind (hP.emit _) fun _ => hP.pure _

theorem Law.inherited_rounds {law : Law σ α} (hl : ∀ values, P _ (host (law.predicate values)))
    (n i : Nat) : P _ (law.rounds g n i) := by
  induction n generalizing i with
  | zero => exact hP.pure _
  | succ n ih =>
    refine hP.bind (Law.inherited_round hP hg hl i) fun found => ?_
    cases found with
    | none => exact ih (i + 1)
    | some verdict => exact hP.pure _

/-- The check of a law inherits what generator and predicate have, whether it is skipped, passes or
ends early. -/
theorem Law.inherited_check {law : Law σ α} (hl : ∀ values, P _ (host (law.predicate values)))
    (c : Config) : P _ (law.check g c) := by
  unfold check
  split
  · exact hP.bind (hP.emit _) fun _ => hP.pure _
  · refine hP.bind (Law.inherited_rounds hP hg hl c.sampleSize 0) fun found => ?_
    cases found with
    | none => exact hP.bind (hP.emit _) fun _ => hP.pure _
    | some verdict => exact hP.pure _

omit hP hg

namespace Constraint

mutual

/-- **A check inherits** what the calls of the generator and of the predicates have. -/
theorem inherited_check (hP : Inherited P) (hg : ∀ i, P _ (host (g.get i))) (c : Config) :
    ∀ a : Constraint σ α, (∀ law ∈ a.leaves, ∀ values, P _ (host (law.predicate values))) →
      P _ (a.check g c)
  | obeys law, ha => Law.inherited_check hP hg (ha law List.mem_cons_self) c
  | all parts, ha => hP.bind (inherited_checkEach hP hg c parts ha) fun _ => hP.pure _
  | any parts, ha => hP.bind (inherited_checkEach hP hg c parts ha) fun _ => hP.pure _

theorem inherited_checkEach (hP : Inherited P) (hg : ∀ i, P _ (host (g.get i))) (c : Config) :
    ∀ parts : List (Constraint σ α),
      (∀ law ∈ leavesOfEach parts, ∀ values, P _ (host (law.predicate values))) →
        P _ (checkEach g c parts)
  | [], _ => hP.pure _
  | part :: parts, ha =>
    hP.bind (inherited_check hP hg c part fun law hl => ha law (List.mem_append_left _ hl))
      fun _ => hP.bind
        (inherited_checkEach hP hg c parts fun law hl => ha law (List.mem_append_right _ hl))
        fun _ => hP.pure _

end

end Constraint

include hP hg

/-- To check the own laws of a class inherits what its laws have. -/
theorem Hierarchy.inherited_checkOwn (c : Config) (id : ClassId) {cls : Class σ α}
    (hl : ∀ law ∈ cls.laws.leaves, ∀ values, P _ (host (law.predicate values))) :
    P _ (checkOwn g c id cls) := by
  refine hP.bind ?_ fun _ => hP.pure _
  refine hP.bind (hP.emit _) fun _ => ?_
  refine hP.bind (Constraint.inherited_check hP hg c cls.laws hl) fun _ => ?_
  exact hP.bind (hP.emit _) fun _ => hP.pure _

end Checks

/-! ### Walks -/

variable [Inspectable α]

/-- **A walk inherits** what its arrivals, look-ups and records have, and the checks that it
makes. -/
theorem Hierarchy.inherited_visit {P : (β : Type) → Run (Survey σ) (Event α) β → Prop}
    (hP : Inherited P) {h : Hierarchy σ α} {g : Generator σ α} {c : Config}
    (harrive : ∀ id, P _ (Survey.arrive id)) (hknown : ∀ id, P _ (Survey.known g.id id))
    (hrecord : ∀ id v, P _ (Survey.record g.id id v))
    (hown : ∀ id cls, h.class? id = some cls → P _ (Survey.onHost (checkOwn g c id cls))) :
    ∀ n id, P _ (h.visit g c n id) := by
  intro n
  induction n with
  | zero => exact fun id => hP.pure _
  | succ n ih =>
    intro id
    unfold visit
    refine hP.bind (hP.emit _) fun _ => ?_
    cases hc : h.class? id with
    | none => exact hP.pure _
    | some cls =>
      refine hP.bind (harrive id) fun first => hP.bind (hknown id) fun found => ?_
      cases found with
      | some verdict => exact hP.bind (hP.emit _) fun _ => hP.pure _
      | none =>
        refine hP.bind (hP.mapM ih cls.parents) fun inherited => ?_
        refine hP.bind (hown id cls hc) fun own => ?_
        exact hP.bind (hrecord id _) fun _ => hP.pure _

/-! ### Parts of the host that belong to one generator -/

section Parts

variable (mine : σ → τ) (k : GeneratorId)

/-- The part `mine` of the host belongs to the generator `k`: its handles depend on no other part,
and the handles of other generators do not touch it. -/
def Generator.Respects (g : Generator σ α) : Prop :=
  if g.id = k then ∀ i, Confined mine (host (g.get i) : Run σ (Event α) _)
  else ∀ i, Spares mine (host (g.get i) : Run σ (Event α) _)

/-- The predicate says the same in all states of the host, and does not touch the part `mine`. -/
def Law.Respects (law : Law σ α) : Prop :=
  law.Steady ∧ ∀ values, Spares mine (host (law.predicate values) : Run σ (Event α) _)

/-- The predicates of all laws of a hierarchy do so. -/
def Hierarchy.Respects (h : Hierarchy σ α) : Prop :=
  ∀ id cls, h.class? id = some cls → ∀ law ∈ cls.laws.leaves, law.Respects mine

/-- What a registry and a host state have for one generator: the classes, the records of the
generator, and the part of the host that belongs to it. -/
structure Registry.Agree (r : Registry σ α) (s : σ) (r' : Registry σ α) (s' : σ) : Prop where
  hierarchy_eq : r.hierarchy = r'.hierarchy
  page_eq : r.ledger.pageOf k = r'.ledger.pageOf k
  mine_eq : mine s = mine s'

/-- The part of a survey that belongs to one generator. -/
def Survey.share (s : Survey σ) : τ × Page :=
  (mine s.host, s.ledger.pageOf k)

end Parts

variable {mine : σ → τ} {k : GeneratorId}

omit [Inspectable α] in
/-- A law that respects a part of the state sees this part only when it is called. -/
theorem Law.Respects.confined {law : Law σ α} (hl : law.Respects mine) (values : List α) :
    Confined mine (host (law.predicate values) : Run σ (Event α) _) :=
  fun s t hst => ⟨hl.1 values s t, rfl, (hl.2 values s).trans (hst.trans (hl.2 values t).symm)⟩

omit [Inspectable α] in
theorem Survey.share_mark (id : ClassId) (s : Survey σ) :
    (s.mark id).share mine k = s.share mine k := by
  rw [share, host_mark, ledger_mark]
  rfl

namespace Registry

omit [Inspectable α] in
/-- To agree on what concerns one generator has no direction. -/
theorem Agree.symm {r r' : Registry σ α} {s s' : σ} (ha : Agree mine k r s r' s') :
    Agree mine k r' s' r s :=
  ⟨ha.hierarchy_eq.symm, ha.page_eq.symm, ha.mine_eq.symm⟩

omit [Inspectable α] in
/-- To agree on what concerns one generator can be carried along a run, step by step. -/
theorem Agree.trans {r r' r'' : Registry σ α} {s s' s'' : σ} (ha : Agree mine k r s r' s')
    (ha' : Agree mine k r' s' r'' s'') : Agree mine k r s r'' s'' :=
  ⟨ha.hierarchy_eq.trans ha'.hierarchy_eq, ha.page_eq.trans ha'.page_eq,
    ha.mine_eq.trans ha'.mine_eq⟩

end Registry

/-! ### Walks for the generator and for others -/

namespace Hierarchy

variable {h : Hierarchy σ α} {g : Generator σ α}

/-- A walk for the generator is confined to what belongs to it, and to its own marks. -/
theorem visit_confined (hh : h.Respects mine) (hg : g.Respects mine k) (hk : g.id = k)
    (c : Config) (n : Nat) (id : ClassId) :
    Confined (fun s : Survey σ => (s.share mine k, s.visited)) (h.visit g c n id) := by
  unfold Generator.Respects at hg
  rw [if_pos hk] at hg
  -- the four kinds of steps that a walk has besides reports
  refine inherited_visit (inherited_confined _) ?arrive ?known ?record ?own n id
  case arrive =>
    intro id s t hst
    obtain ⟨hshare, hvisited⟩ := Prod.mk.inj hst
    have hmark : (s.mark id).visited = (t.mark id).visited := by
      unfold Survey.mark
      rw [hvisited]
      split
      · exact hvisited
      · rfl
    rw [Run.value, Run.value, Run.events, Run.events, Run.final, Run.final, Survey.arrive_apply,
      Survey.arrive_apply]
    refine ⟨by rw [hvisited], rfl, Prod.ext ?_ hmark⟩
    exact (Survey.share_mark id s).trans (hshare.trans (Survey.share_mark id t).symm)
  case known =>
    intro id s t hst
    obtain ⟨hshare, -⟩ := Prod.mk.inj hst
    obtain ⟨-, hpage⟩ := Prod.mk.inj hshare
    refine ⟨?_, rfl, hst⟩
    show (s.ledger.pageOf g.id).verdict? id = (t.ledger.pageOf g.id).verdict? id
    rw [hk, hpage]
  case record =>
    intro id v s t hst
    obtain ⟨hshare, hvisited⟩ := Prod.mk.inj hst
    obtain ⟨hmine, hpage⟩ := Prod.mk.inj hshare
    refine ⟨rfl, rfl, ?_⟩
    show ((mine s.host, (s.ledger.record g.id id v).pageOf k), s.visited) =
      ((mine t.host, (t.ledger.record g.id id v).pageOf k), t.visited)
    rw [Ledger.pageOf_record, Ledger.pageOf_record, hmine, hpage, hvisited]
  case own =>
    intro id cls hc
    have hown := inherited_checkOwn (inherited_confined mine) hg c id
      fun law hl => (hh id cls hc law hl).confined
    intro s t hst
    obtain ⟨hshare, hvisited⟩ := Prod.mk.inj hst
    obtain ⟨hmine, hpage⟩ := Prod.mk.inj hshare
    obtain ⟨hvalue, hevents, hfinal⟩ := hown s.host t.host hmine
    refine ⟨hvalue, hevents, ?_⟩
    show ((mine ((checkOwn g c id cls).final s.host), s.ledger.pageOf k), s.visited) =
      ((mine ((checkOwn g c id cls).final t.host), t.ledger.pageOf k), t.visited)
    rw [hfinal, hpage, hvisited]

/-- A walk for another generator spares what belongs to this one. -/
theorem visit_spares (hh : h.Respects mine) (hg : g.Respects mine k) (hk : g.id ≠ k)
    (c : Config) (n : Nat) (id : ClassId) :
    Spares (Survey.share mine k) (h.visit g c n id) := by
  unfold Generator.Respects at hg
  rw [if_neg hk] at hg
  refine inherited_visit (inherited_spares _) ?arrive ?known ?record ?own n id
  case arrive =>
    intro id s
    rw [Run.final, Survey.arrive_apply]
    exact Survey.share_mark id s
  case known => exact fun id s => rfl
  case record =>
    -- a record under another key
    intro id v s
    show (mine s.host, (s.ledger.record g.id id v).pageOf k) = _
    rw [Ledger.pageOf_record, if_neg hk]
    rfl
  case own =>
    intro id cls hc
    have hown := inherited_checkOwn (inherited_spares mine) hg c id
      fun law hl => (hh id cls hc law hl).2
    intro s
    show (mine ((checkOwn g c id cls).final s.host), s.ledger.pageOf k) = _
    rw [hown s.host]
    rfl

end Hierarchy

/-! ### Requests for the generator and for others -/

namespace Registry

variable {r r' : Registry σ α} {s s' : σ} {g : Generator σ α}

/-- **A request on the generator is confined** to what belongs to it: with the same classes, the
same records of the generator and the same part of the host, it returns and reports the same, and
leaves the same. -/
theorem validate_confined (hr : r.hierarchy.Respects mine) (hg : g.Respects mine k)
    (hk : g.id = k) (ha : Agree mine k r s r' s') (id : ClassId) (c : Config) :
    ((r.validate id g c).value s).1 = ((r'.validate id g c).value s').1 ∧
      (r.validate id g c).events s = (r'.validate id g c).events s' ∧
      Agree mine k ((r.validate id g c).value s).2 ((r.validate id g c).final s)
        ((r'.validate id g c).value s').2 ((r'.validate id g c).final s') := by
  obtain ⟨h, l⟩ := r
  obtain ⟨h', l'⟩ := r'
  obtain ⟨rfl, hpage, hmine⟩ := ha
  have hshare : Survey.share mine k ⟨s, l, []⟩ = Survey.share mine k ⟨s', l', []⟩ :=
    Prod.ext hmine hpage
  obtain ⟨hvalue, hevents, hfinal⟩ := Hierarchy.visit_confined hr hg hk c (id.index + 1) id
    ⟨s, l, []⟩ ⟨s', l', []⟩ (Prod.ext hshare rfl)
  obtain ⟨hmine', hpage'⟩ := Prod.mk.inj (Prod.mk.inj hfinal).1
  refine ⟨hvalue, ?_, rfl, hpage', hmine'⟩
  show _ ++ [logged _] = _ ++ [logged _]
  exact congrArg₂ _ hevents (congrArg (fun v => [logged (closing ⟨h, l⟩ id g v)]) hvalue)

/-- **A request on another generator spares** what belongs to this one. -/
theorem validate_spares (hr : r.hierarchy.Respects mine) (hg : g.Respects mine k)
    (hk : g.id ≠ k) (id : ClassId) (c : Config) (s : σ) :
    Agree mine k r s ((r.validate id g c).value s).2 ((r.validate id g c).final s) := by
  have hspared := Hierarchy.visit_spares hr hg hk c (id.index + 1) id ⟨s, r.ledger, []⟩
  obtain ⟨hmine, hpage⟩ := Prod.mk.inj hspared
  exact ⟨rfl, hpage.symm, hmine.symm⟩

end Registry

end Lawbook
