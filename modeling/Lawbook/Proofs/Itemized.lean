/-
Lawbook/Proofs/Itemized.lean

Itemized reports: what a request reports when nothing is recorded for its generator yet.

Then the request settles the requested class and all its ancestors, each where it arrives first, and
each other arrival is at a class that it has settled itself.  It arrives once over each parent edge
(`Tour.perm_lineage`, `Tour.perm_again`).  So the report is an itemized account: the block of each
of these classes whose own laws are broken, the heading of each that has a failing parent, and one
line for each parent edge that leads to a failing class without being the first to do so.

`Desk.fresh_report_itemized` states this for every registry that a run of operations can lead to.
-/
import Lawbook.Proofs.Once
import Lawbook.Proofs.Tour

namespace Lawbook

open Arrival Event

variable {κ σ α : Type}

/-! ### Failing records -/

/-- Whether a failure is recorded. -/
def Ledger.fails (l : Ledger) (k : GeneratorId) (d : ClassId) : Bool :=
  (l.verdict? k d).any Verdict.isFailure

theorem Ledger.fails_eq_false_iff {l : Ledger} {k : GeneratorId} {n : Notes}
    (hl : l.Composed k n.page) (d : ClassId) :
    l.fails k d = false ↔ n.piecesOf d = [] := by
  rw [fails, hl.verdict?_eq, Notes.piecesOf]
  cases n.page d with
  | none => simp
  | some pieces =>
    show (!(Verdict.ofPieces pieces).isSuccess) = false ↔ pieces = []
    rw [Bool.not_eq_false', Verdict.isSuccess_iff, Verdict.ofPieces_eq_success_iff]

namespace Hierarchy

variable {h : Hierarchy σ α} {generator : String} {own : ClassId → Verdict}

section Fails

variable {fails : ClassId → Bool} {page : ClassId → List Piece}

theorem flatMap_of_ite {β γ : Type} {holds : β → Bool} {f : β → γ} {lists : β → List γ}
    (hl : ∀ x, lists x = if holds x then [f x] else []) (xs : List β) :
    xs.flatMap lists = (xs.filter holds).map f := by
  induction xs with
  | nil => rfl
  | cons x xs ih =>
    rw [List.flatMap_cons, ih, hl]
    by_cases hx : holds x <;> simp [hx]

theorem flatMap_headings (hf : ∀ d, fails d = false ↔ page d = []) (ds : List ClassId) :
    ds.flatMap (h.headings generator page) =
      (ds.filter fun d => (h.parentsOf d).any fails).map (h.heading generator) := by
  refine flatMap_of_ite (fun d => ?_) ds
  have hany : (h.parentsOf d).any fails = false ↔ ∀ p ∈ h.parentsOf d, page p = [] := by
    simp [List.any_eq_false, hf]
  rw [headings]
  cases ha : (h.parentsOf d).any fails with
  | true => exact if_neg fun hall => by simp [hany.2 hall] at ha
  | false => exact if_pos (hany.1 ha)

theorem flatMap_repeated (hf : ∀ d, fails d = false ↔ page d = []) (ds : List ClassId) :
    ds.flatMap (fun d => h.repeated generator d (page d)) =
      (ds.filter fails).map (h.againPiece generator) := by
  refine flatMap_of_ite (fun d => ?_) ds
  rw [repeated]
  cases hd : fails d with
  | true => exact if_neg fun hnil => by simp [(hf d).2 hnil] at hd
  | false => exact if_pos ((hf d).1 hd)

end Fails

/-! ### Tours with nothing noted -/

section Blank

variable {n' : Notes} {id d : ClassId} {roots : List ClassId} {lists : List (List Piece)}
variable {trace : List Arrival}

/-- A tour settles or knows each class that it arrives at, if it visited nothing before. -/
theorem Tour.mem_targets_iff {page : ClassId → Option (List Piece)}
    (ht : h.Tour generator own ⟨page, []⟩ roots n' lists trace) :
    d ∈ trace.map Arrival.id ↔ d ∈ ofKind .fresh trace ∨ d ∈ ofKind .known trace := by
  rw [mem_map_id_iff]
  constructor
  · rintro (hd | hd | hd)
    · exact .inl hd
    · exact .inr hd
    · exact (ht.mem_visited_iff.1 (ht.visited_of_again hd)).resolve_left List.not_mem_nil
  · rintro (hd | hd)
    · exact .inl hd
    · exact .inr (.inl hd)

variable (ht : h.Tour generator own .blank roots n' lists trace)

include ht

theorem Tour.known_eq_nil : ofKind .known trace = [] := by
  refine List.eq_nil_iff_forall_not_mem.2 fun d hd => ?_
  have hs := (ht.noted_of_known hd).1
  cases hs

/-- With nothing noted, all ancestors are settled. -/
theorem Tour.mem_fresh_iff : d ∈ ofKind .fresh trace ↔ ∃ p ∈ roots, h.Descends p d := by
  have harrived : ∀ {x}, x ∈ roots ++ (ofKind .fresh trace).flatMap h.parentsOf →
      x ∈ ofKind .fresh trace := by
    intro x hx
    have hm := ht.mem_targets_iff.1 (ht.perm_targets.mem_iff.2 hx)
    rw [ht.known_eq_nil] at hm
    exact hm.resolve_right List.not_mem_nil
  constructor
  · exact ht.descends
  · rintro ⟨p, hp, hd⟩
    induction hd with
    | refl => exact harrived (List.mem_append_left _ hp)
    | tail _ he ih =>
      exact harrived (List.mem_append_right _ (List.mem_flatMap.2 ⟨_, ih, he⟩))

end Blank

section Root

variable {n' : Notes} {id : ClassId} {lists : List (List Piece)} {trace : List Arrival}
variable (ht : h.Tour generator own .blank [id] n' lists trace)

include ht

/-- A tour from one class settles its lineage. -/
theorem Tour.perm_lineage : (ofKind .fresh trace).Perm (h.lineage id) := by
  refine (List.perm_ext_iff_of_nodup (List.nodup_append.1 ht.nodup).1 (h.lineage_nodup id)).2 ?_
  intro d
  rw [ht.mem_fresh_iff, mem_lineage_iff]
  constructor
  · rintro ⟨p, hp, hd⟩
    exact List.mem_singleton.1 hp ▸ hd
  · exact fun hd => ⟨id, List.mem_singleton.2 rfl, hd⟩

/-- Each proper ancestor is arrived at first over one parent edge, and again over each other. -/
theorem Tour.perm_again :
    (ofKind .again trace ++ h.ancestors id).Perm ((h.lineage id).flatMap h.parentsOf) := by
  have hkinds := perm_map_id trace
  have htargets := ht.perm_targets
  have hedges := ht.perm_lineage.flatMap_right h.parentsOf
  rw [ht.known_eq_nil, List.append_nil] at hkinds
  rw [List.perm_iff_count] at hkinds htargets hedges ⊢
  intro x
  have hx := (ht.perm_lineage.count_eq x).symm
  have hk := hkinds x
  have hr := htargets x
  rw [lineage, List.count_append, List.count_reverse] at hx
  rw [List.count_append] at hk hr ⊢
  -- the first arrival at the requested class is over no edge, and it is no ancestor of itself
  rw [← hedges x]
  omega

end Root

end Hierarchy

/-! ### Itemized reports -/

/-- The account of a report `v` on the class `id`, of which `pieces` are the pieces.  The records
afterwards are in `l`, and `es` are the events of the request. -/
structure Hierarchy.Itemized (h : Hierarchy σ α) (g : Generator σ α) (id : ClassId)
    (l : Ledger) (es : List (Event α)) (v : Verdict) (pieces : List Piece)
    (again : List ClassId) : Prop where
  /-- The own laws of the class and of each ancestor are checked once. -/
  closings_eq : ∀ d, h.Descends id d → closings g.id d es = [ownVerdict g.id es d]
  /-- The report is made of the pieces, with one blank line between. -/
  verdict_eq : v = .ofPieces pieces
  /-- No piece ends in a blank. -/
  solid : ∀ p ∈ pieces, p.Solid
  /-- The pieces are the block of each class whose own laws are broken, the heading of each class
  with a failing parent, and lines. -/
  perm_pieces : pieces.Perm
    ((h.lineage id).flatMap (fun d => h.ownPieces g.name d (ownVerdict g.id es d)) ++
      ((h.lineage id).filter fun d => (h.parentsOf d).any (l.fails g.id)).map
        (h.heading g.name) ++
      again.map (h.againPiece g.name))
  /-- There is a line for each parent edge to a failing class, but one for each such class. -/
  perm_again : (again ++ (h.ancestors id).filter (l.fails g.id)).Perm
    (((h.lineage id).flatMap h.parentsOf).filter (l.fails g.id))
  /-- There are as many lines as parent edges to failing classes, less the failing ancestors. -/
  length_again : again.length =
    ((h.lineage id).flatMap h.parentsOf).countP (l.fails g.id) -
      (h.ancestors id).countP (l.fails g.id)
  /-- Each class has its own block before the heading of its prerequisites, and what it takes over
  from its parents behind that, the later parents first. -/
  arranged : ∃ page : ClassId → List Piece, page id = pieces ∧ ∀ d, h.Descends id d →
    l.verdict? g.id d = some (.ofPieces (page d)) ∧
      ∃ above, page d = h.composed g.name d (ownVerdict g.id es d) above ∧
        List.Forall₂ (h.Takes g.name page) (h.parentsOf d) above

/-- **A tour with nothing noted before is an itemized account.** -/
theorem Hierarchy.Tour.itemized {h : Hierarchy σ α} {g : Generator σ α} {id : ClassId} {l : Ledger}
    {es : List (Event α)} {v : Verdict} {pieces : List Piece} {n' : Notes} {trace : List Arrival}
    (ht : h.Tour g.name (ownVerdict g.id es) .blank [id] n' [pieces] trace)
    (hl : l.Composed g.id n'.page)
    (hc : ∀ d, h.Descends id d → closings g.id d es = [ownVerdict g.id es d])
    (hv : v = .ofPieces pieces) :
    h.Itemized g id l es v pieces ((ofKind .again trace).filter (l.fails g.id)) := by
  have hroot := ht.page_of_not_visited List.not_mem_nil
  have hfails := Ledger.fails_eq_false_iff hl
  have hpieces := ht.perm_pieces n'.on_piecesOf
  rw [List.flatten_singleton, ht.known_eq_nil, List.flatMap_nil, List.append_nil,
    flatMap_headings hfails, flatMap_repeated hfails] at hpieces
  have hagain := ht.perm_again.filter (l.fails g.id)
  rw [List.filter_append] at hagain
  -- the pieces of the lineage, with a heading for each parent that fails and a line for each arrival
  -- at one that was noted; then their number, and how they are arranged
  refine ⟨hc, hv, hl.solid id pieces hroot, ?_, hagain, ?_, n'.piecesOf, ?_, fun d hd => ?_⟩
  · refine hpieces.trans (List.Perm.append_right _ (List.Perm.append ?_ ?_))
    · exact ht.perm_lineage.flatMap_right _
    · exact (ht.perm_lineage.filter _).map _
  · rw [List.countP_eq_length_filter, List.countP_eq_length_filter, ← hagain.length_eq,
      List.length_append, Nat.add_sub_cancel]
  · exact n'.on_piecesOf id pieces hroot
  · have hfresh := ht.mem_fresh_iff.2 ⟨id, List.mem_singleton.2 rfl, hd⟩
    obtain ⟨list, hlist⟩ := Option.isSome_iff_exists.1 (ht.isSome_iff.2 (.inr hfresh))
    refine ⟨?_, ht.arranged n'.on_piecesOf hfresh⟩
    rw [hl.verdict?_eq, n'.on_piecesOf d list hlist, hlist]
    rfl

variable [Inspectable α]

/-- A request that checks a class has one verdict on its laws. -/
theorem Registry.Plan.closings_eq {r : Registry σ α} {id : ClassId} {g : Generator σ α}
    {c : Config} {s : σ} {plan : List ClassId} (hp : r.Plan id g c s plan) {d : ClassId}
    (hd : d ∈ plan) :
    closings g.id d ((r.validate id g c).events s) =
      [ownVerdict g.id ((r.validate id g c).events s) d] := by
  have hlength := r.closings_length_eq id g c s g.id d
  rw [hp.openings_eq, if_pos ⟨hd, rfl⟩] at hlength
  obtain ⟨v, hv⟩ := List.length_eq_one_iff.1 hlength
  rw [ownVerdict, hv]
  rfl

/-- **A report with nothing recorded before is an itemized account.**  After any run of operations,
let a class be validated against a generator for which nothing is recorded.  The report is made of
the block of each class, among the requested one and its ancestors, whose own laws are broken, of
the heading of each that has a failing parent, and of lines for failing ancestors that are arrived
at again, as many as there are parent edges to failing classes less the failing ancestors.  No
other pieces are there, and each class has its own block before its prerequisites, and the later
parents before the earlier ones. -/
theorem Desk.fresh_report_itemized [DecidableEq κ] (qs : List (Request κ σ α)) (s₀ s : σ)
    (id : ClassId) (g : Generator σ α) (c : Config)
    (hid : id.index < (Desk.after qs s₀).registry.hierarchy.size)
    (hnone : ∀ d, (Desk.after qs s₀).registry.ledger.verdict? g.id d = none) :
    let r := (Desk.after qs s₀).registry
    let result := (r.validate id g c).value s
    ∃ pieces again, r.hierarchy.Itemized g id result.2.ledger ((r.validate id g c).events s)
      result.1 pieces again := by
  intro r result
  have hblank : r.ledger.Composed g.id Notes.blank.page :=
    ⟨hnone, fun d pieces hd => by cases hd⟩
  obtain ⟨plan, hplan⟩ := Registry.exists_plan (Desk.after_audited qs s₀) hid g c s
  obtain ⟨hvalue, -, hcomposed, -⟩ := r.validate_outline id g c s hid hblank
  have ht := r.outline_tour id g c s hid .blank
  refine ⟨_, _, ht.itemized hcomposed (fun d hd => ?_) hvalue⟩
  exact hplan.closings_eq ((hplan.mem_iff d).2 ⟨hd, hnone d⟩)

namespace Diamond

/-- Four classes fail because of the first one, and four parent edges lead to the three that lie
above the requested one.  So there is one line. -/
theorem both_itemized :
    let r := (Desk.after (failing.take 4) ()).registry
    let result := (r.validate ⟨3⟩ doubles config).value ()
    result.1 ≠ .success ∧ ∃ pieces again, r.hierarchy.Itemized doubles ⟨3⟩ result.2.ledger
      ((r.validate ⟨3⟩ doubles config).events ()) result.1 pieces again ∧ again.length = 1 := by
  intro r result
  have hid : (⟨3⟩ : ClassId).index < r.hierarchy.size := by decide +kernel
  have hempty : r.ledger = .empty := by decide +kernel
  have hnone : ∀ d, r.ledger.verdict? doubles.id d = none := by
    intro d
    rw [hempty]
    rfl
  obtain ⟨pieces, again, hitems⟩ :=
    Desk.fresh_report_itemized (failing.take 4) () () ⟨3⟩ doubles config hid hnone
  have hfails : result.1 ≠ .success := by decide +kernel
  have hedges : ((r.hierarchy.lineage ⟨3⟩).flatMap r.hierarchy.parentsOf).countP
      (result.2.ledger.fails doubles.id) = 4 := by decide +kernel
  have habove : (r.hierarchy.ancestors ⟨3⟩).countP (result.2.ledger.fails doubles.id) = 3 := by
    decide +kernel
  have hlength := hitems.length_again
  rw [hedges, habove] at hlength
  exact ⟨hfails, pieces, again, hitems, hlength⟩

end Diamond

end Lawbook
