/-
Lawbook/Proofs/Book.lean

Books of pieces: what the reports of a whole run are made of.

A record is taken over as it is when a later request arrives at it first, with all blocks in it.
So which blocks a report holds depends on the requests before.  `Desk.book` keeps, beside the
records of a run, the pieces of each, as the outlines of the validations tell them; the records are
what the book says (`Desk.booked_after`).

`Desk.report_accounted` gives the account of the report on any request of a run.  A class that the
request settles contributes its own pieces, once; a class with a record contributes all pieces of
the record, once; and each other arrival at a failing class contributes one line.  So the block of a
class is in a report at most once if the class was not recorded before.  Otherwise it can be there
more often, once for each record that holds it and that the request arrives at
(`Diamond.odd_shown_twice`).
-/
import Lawbook.Proofs.Itemized
import Mathlib.Algebra.GroupWithZero.Nat

namespace Lawbook

open Arrival (ofKind)
open Event

variable {κ σ α : Type}

/-! ### Blocks among pieces -/

namespace Piece

/-- Whether a piece is the block of a class. -/
def isBlockOf (d : ClassId) : Piece → Bool
  | own e _ _ _ => e = d
  | _ => false

/-- How often the block of a class is among pieces. -/
def blocks (d : ClassId) (pieces : List Piece) : Nat :=
  pieces.countP (isBlockOf d)

variable {d : ClassId}

theorem blocks_eq_zero_iff {pieces : List Piece} :
    blocks d pieces = 0 ↔ ∀ p ∈ pieces, p.isBlockOf d = false := by
  simp [blocks, List.countP_eq_zero]

theorem blocks_map_eq_zero {β : Type} {f : β → Piece} (hf : ∀ x, (f x).isBlockOf d = false)
    (xs : List β) : blocks d (xs.map f) = 0 :=
  blocks_eq_zero_iff.2 (List.forall_mem_map.2 fun x _ => hf x)

end Piece

open Piece

namespace Hierarchy

variable {h : Hierarchy σ α} {generator : String} {own : ClassId → Verdict} {d e : ClassId}

theorem blocks_ownPieces (generator : String) (v : Verdict) : blocks d (h.ownPieces generator e v) =
    if e = d ∧ v ≠ .success then 1 else 0 := by
  cases v with
  | success => simp [ownPieces, Verdict.report?, blocks]
  | failure report =>
    by_cases he : e = d <;> simp [ownPieces, Verdict.report?, blocks, isBlockOf, he]

/-- Different classes have one block each, where their own laws are broken. -/
theorem blocks_flatMap_ownPieces {ds : List ClassId} (hn : ds.Nodup) :
    blocks d (ds.flatMap fun e => h.ownPieces generator e (own e)) =
      if d ∈ ds ∧ own d ≠ .success then 1 else 0 := by
  induction ds with
  | nil => rfl
  | cons e ds ih =>
    obtain ⟨he, hds⟩ := List.nodup_cons.1 hn
    have hstep := ih hds
    have hhead : blocks d (h.ownPieces generator e (own e)) = _ :=
      blocks_ownPieces generator (own e)
    unfold blocks at hstep hhead ⊢
    rw [List.flatMap_cons, List.countP_append, hhead, hstep]
    by_cases hd : e = d
    · subst hd
      simp [he]
    · simp [hd, Ne.symm hd]

end Hierarchy

/-! ### Blocks belong to noted classes -/

namespace Notes

/-- The classes of all blocks among pieces are noted. -/
def Covers (n : Notes) (pieces : List Piece) : Prop :=
  ∀ p ∈ pieces, ∀ d, p.isBlockOf d → (n.page d).isSome

/-- The classes of all blocks in the notes are noted. -/
def Closed (n : Notes) : Prop :=
  ∀ e pieces, n.page e = some pieces → n.Covers pieces

variable {n n' : Notes} {pieces : List Piece}

theorem Covers.mono (hc : n.Covers pieces)
    (hs : ∀ d, (n.page d).isSome → (n'.page d).isSome) : n'.Covers pieces :=
  fun p hp d hd => hs d (hc p hp d hd)

/-- A class that is not noted has no block. -/
theorem Covers.blocks_eq_zero (hc : n.Covers pieces) {d : ClassId} (hd : n.page d = none) :
    blocks d pieces = 0 := by
  refine blocks_eq_zero_iff.2 fun p hp => ?_
  rw [Bool.eq_false_iff]
  intro hb
  have hs := hc p hp d hb
  rw [hd] at hs
  cases hs

theorem Closed.note (hn : n.Closed) (id : ClassId) (hp : (n.note id pieces).Covers pieces) :
    (n.note id pieces).Closed := by
  intro e list he
  rcases Option.or_eq_some_iff.1 he with hold | ⟨-, hnew⟩
  · exact (hn e list hold).mono fun d hd => isSome_note.2 (.inl hd)
  · obtain ⟨-, ⟨⟩⟩ := Option.ite_none_right_eq_some.1 hnew
    exact hp

end Notes

namespace Hierarchy

variable {h : Hierarchy σ α} {generator : String} {own : ClassId → Verdict} {id : ClassId}
variable {n n' : Notes} {roots : List ClassId} {lists : List (List Piece)} {trace : List Arrival}

/-- A class adds its own block only. -/
theorem covers_composed {above : List (List Piece)} (ha : ∀ list ∈ above, n.Covers list)
    (pieces : List Piece) (v : Verdict) :
    (n.note id pieces).Covers (h.composed generator id v above) := by
  intro p hp d hd
  rw [Notes.isSome_note]
  rcases List.mem_append.1 hp with hp | hp
  · obtain ⟨report, -, rfl⟩ := List.mem_map.1 hp
    exact .inr (of_decide_eq_true (p := id = d) hd).symm
  · rcases mem_of_mem_headed hp with rfl | hp
    · cases hd
    · obtain ⟨list, hlist, hm⟩ := List.mem_flatten.1 hp
      exact .inl (ha list (List.mem_reverse.1 hlist) p hm d hd)

theorem covers_repeated (pieces : List Piece) : n.Covers (h.repeated generator id pieces) := by
  intro p hp d hd
  unfold repeated at hp
  split at hp
  · exact absurd hp List.not_mem_nil
  · obtain rfl := List.mem_singleton.1 hp
    cases hd

/-- A tour takes over and notes blocks of noted classes only. -/
theorem Tour.closed (ht : h.Tour generator own n roots n' lists trace) (hn : n.Closed) :
    n'.Closed ∧ ∀ list ∈ lists, n'.Covers list := by
  induction ht with
  | nil => exact ⟨hn, List.forall_mem_nil _⟩
  | again _ _ _ ih =>
    exact ⟨(ih hn).1, List.forall_mem_cons.2 ⟨covers_repeated _, (ih hn).2⟩⟩
  | known hp _ ht ih =>
    have hmark := ih (by unfold Notes.Closed Notes.Covers; rwa [Notes.page_mark])
    refine ⟨hmark.1, List.forall_mem_cons.2 ⟨?_, hmark.2⟩⟩
    refine (hn _ _ hp).mono fun d hd => ht.isSome_iff.2 (.inl ?_)
    rwa [Notes.page_mark]
  | fresh _ _ ht₂ ih₁ ih₂ =>
    have hmark := ih₁ (by unfold Notes.Closed Notes.Covers; rwa [Notes.page_mark])
    have hnote := ih₂ (hmark.1.note _ (covers_composed hmark.2 _ _))
    refine ⟨hnote.1, List.forall_mem_cons.2 ⟨?_, hnote.2⟩⟩
    exact (covers_composed hmark.2 _ _).mono fun d hd => ht₂.isSome_iff.2 (.inl hd)

end Hierarchy

/-! ### The book of a run -/

variable [Inspectable α]

/-- The pieces of all records, by generators and classes. -/
abbrev Book : Type :=
  GeneratorId → ClassId → Option (List Piece)

/-- The book after a validation, which writes down the pieces that its outline notes. -/
def Validation.enter (book : Book) (x : Validation σ α) : Book := fun k =>
  if k = x.generator.id then
    ((x.registry.outline x.id x.generator x.config x.host).final ⟨book k, []⟩).page
  else book k

/-- The book of a run on an empty desk. -/
def Desk.book [DecidableEq κ] (qs : List (Request κ σ α)) (s : σ) : Book :=
  (Desk.validations qs s).foldl Validation.enter fun _ _ => none

/-- The book has the pieces of each record, and blocks of recorded classes only. -/
structure Ledger.Booked (l : Ledger) (book : Book) : Prop where
  composed : ∀ k, l.Composed k (book k)
  closed : ∀ k, (⟨book k, []⟩ : Notes).Closed

theorem Ledger.booked_empty : Ledger.empty.Booked fun _ _ => none := by
  refine ⟨fun k => ⟨fun d => rfl, ?_⟩, fun k => ?_⟩
  · intro d pieces hd
    cases hd
  · intro d pieces hd
    cases hd

/-- A validation enters the pieces of what it records. -/
theorem Validation.booked {x : Validation σ α} {book : Book} (hb : x.registry.ledger.Booked book) :
    x.result.ledger.Booked (x.enter book) := by
  by_cases hid : x.id.index < x.registry.hierarchy.size
  · obtain ⟨-, -, hcomposed, -⟩ := x.registry.validate_outline x.id x.generator x.config x.host hid
      (hb.composed x.generator.id)
    obtain ⟨plan, hp⟩ := x.registry.validate_settles x.id x.generator x.config x.host hid
    have ht := x.registry.outline_tour x.id x.generator x.config x.host hid
      ⟨book x.generator.id, []⟩
    refine ⟨fun k => ?_, fun k => ?_⟩
    · by_cases hk : k = x.generator.id
      · rw [enter, if_pos hk, hk]
        exact hcomposed
      · -- the pages of other generators stay as they are
        have hpage : x.result.ledger.pageOf k = x.registry.ledger.pageOf k :=
          hp.settles.pageOf_eq hk
        obtain ⟨heq, hsolid⟩ := hb.composed k
        rw [enter, if_neg hk]
        refine ⟨fun d => ?_, hsolid⟩
        rw [← heq d, Ledger.verdict?, Ledger.verdict?, hpage]
    · by_cases hk : k = x.generator.id
      · rw [enter, if_pos hk, hk]
        exact (ht.closed (hb.closed x.generator.id)).1
      · rw [enter, if_neg hk]
        exact hb.closed k
  · -- nothing is recorded for a class that is not there
    have hsame : x.result = x.registry := by
      rw [result, Run.value, Registry.validate_unknown _ _ _ _ _ hid]
    have hnotes : x.enter book = book := by
      funext k
      rw [enter]
      split
      · rw [Registry.outline, Run.final, Hierarchy.outline_unknown
          (Hierarchy.class?_eq_none_of_not_lt hid)]
      · rfl
    rw [hsame, hnotes]
    exact hb

/-- Requests enter the pieces of what they record. -/
theorem Desk.booked_serve [DecidableEq κ] (qs : List (Request κ σ α)) {desk : Desk κ σ α} {s : σ}
    {book : Book} (hb : desk.registry.ledger.Booked book) :
    ((desk.serve qs).value s).registry.ledger.Booked
      ((desk.validationsOf s qs).foldl Validation.enter book) := by
  induction qs generalizing desk s book with
  | nil => exact hb
  | cons q qs ih =>
    rw [serve, List.foldlM_cons, Run.value_bind, validationsOf, List.foldl_append]
    apply ih
    cases hx : desk.validation? s q with
    | none =>
      rw [(answer_of_validation?_eq_none hx).1]
      exact hb
    | some x =>
      obtain ⟨hr, -, hresult, -⟩ := answer_of_validation? hx
      rw [hresult]
      exact Validation.booked (hr ▸ hb)

/-- **The records of a run are what its book says.** -/
theorem Desk.booked_after [DecidableEq κ] (qs : List (Request κ σ α)) (s : σ) :
    (Desk.after qs s).registry.ledger.Booked (Desk.book qs s) :=
  Desk.booked_serve qs Ledger.booked_empty

/-! ### The account of a report -/

omit [Inspectable α] in
/-- The account of a report `v` on a request: `page` has the pieces of the records before, `l` is
the ledger afterwards, and `es` are the events of the request.  The request arrives at the classes
`settled`, for which nothing is recorded, at the classes `taken`, which are recorded, and at the
classes `again` after that. -/
structure Hierarchy.Accounted (h : Hierarchy σ α) (g : Generator σ α)
    (page : ClassId → Option (List Piece)) (l : Ledger) (es : List (Event α)) (v : Verdict)
    (pieces : List Piece) (settled taken again : List ClassId) : Prop where
  /-- These are the arrivals. -/
  perm_targets : (targets es).Perm (settled ++ taken ++ again)
  /-- Each class is arrived at once before it is arrived at again. -/
  nodup : (settled ++ taken).Nodup
  settled_none : ∀ d ∈ settled, page d = none
  taken_some : ∀ d ∈ taken, (page d).isSome
  again_mem : ∀ d ∈ again, d ∈ settled ++ taken
  /-- The report is made of the pieces, with one blank line between. -/
  verdict_eq : v = .ofPieces pieces
  /-- No piece ends in a blank. -/
  solid : ∀ p ∈ pieces, p.Solid
  /-- A settled class has its block and its heading among the pieces, a recorded class the pieces of
  its record, and a class that is arrived at again its line, if it fails. -/
  perm_pieces : pieces.Perm
    (settled.flatMap (fun d => h.ownPieces g.name d (ownVerdict g.id es d)) ++
      (settled.filter fun d => (h.parentsOf d).any (l.fails g.id)).map (h.heading g.name) ++
      taken.flatMap (fun d => (page d).getD []) ++
      (again.filter (l.fails g.id)).map (h.againPiece g.name))
  /-- The block of a class is there once if the class is settled and its own laws are broken, and as
  often as it is in the records that are taken over. -/
  blocks_eq : ∀ d, blocks d pieces =
    (if d ∈ settled ∧ ownVerdict g.id es d ≠ .success then 1 else 0) +
      (taken.map fun e => blocks d ((page e).getD [])).sum
  /-- The block of a class that was not recorded before is there at most once. -/
  blocks_le : ∀ d, page d = none → blocks d pieces ≤ 1

section Tour

variable {h : Hierarchy σ α} {g : Generator σ α} {id : ClassId}
variable {page : ClassId → Option (List Piece)} {l : Ledger} {es : List (Event α)}
variable {pieces : List Piece} {n' : Notes} {trace : List Arrival}
variable (ht : h.Tour g.name (ownVerdict g.id es) ⟨page, []⟩ [id] n' [pieces] trace)
variable (hl : l.Composed g.id n'.page)

include ht hl

omit [Inspectable α] in
/-- A tour from one class is made of what it settles, of what it takes over, and of lines. -/
theorem Hierarchy.Tour.perm_taken : pieces.Perm
    ((ofKind .fresh trace).flatMap (fun d => h.ownPieces g.name d (ownVerdict g.id es d)) ++
      ((ofKind .fresh trace).filter fun d => (h.parentsOf d).any (l.fails g.id)).map
        (h.heading g.name) ++
      (ofKind .known trace).flatMap (fun d => (page d).getD []) ++
      ((ofKind .again trace).filter (l.fails g.id)).map (h.againPiece g.name)) := by
  have hfails := Ledger.fails_eq_false_iff hl
  -- what is taken over from a record is what was noted for it before
  have htaken : ∀ d ∈ ofKind .known trace, n'.piecesOf d = (page d).getD [] := by
    intro d hd
    obtain ⟨list, hlist⟩ : ∃ list, page d = some list :=
      Option.isSome_iff_exists.1 (ht.noted_of_known hd).1
    rw [n'.on_piecesOf d list (ht.keeps hlist), hlist]
    rfl
  have hpieces := ht.perm_pieces n'.on_piecesOf
  rwa [List.flatten_singleton, flatMap_headings hfails, flatMap_repeated hfails,
    List.flatMap_congr htaken] at hpieces

omit [Inspectable α] in
/-- Blocks come from what a tour settles and from what it takes over. -/
theorem Hierarchy.Tour.blocks_eq (d : ClassId) : blocks d pieces =
    (if d ∈ ofKind .fresh trace ∧ ownVerdict g.id es d ≠ .success then 1 else 0) +
      ((ofKind .known trace).map fun e => blocks d ((page e).getD [])).sum := by
  have hown : blocks d ((ofKind .fresh trace).flatMap fun e =>
      h.ownPieces g.name e (ownVerdict g.id es e)) = _ :=
    blocks_flatMap_ownPieces (List.nodup_append.1 ht.nodup).1
  have hheadings := blocks_map_eq_zero (d := d) (f := h.heading g.name) (fun e => rfl)
    ((ofKind .fresh trace).filter fun d => (h.parentsOf d).any (l.fails g.id))
  have hlines := blocks_map_eq_zero (d := d) (f := h.againPiece g.name) (fun e => rfl)
    ((ofKind .again trace).filter (l.fails g.id))
  have hcount := (ht.perm_taken hl).countP_eq (isBlockOf d)
  unfold blocks at hown hheadings hlines ⊢
  rw [List.countP_append, List.countP_append, List.countP_append, hown, hheadings, hlines,
    List.countP_flatMap] at hcount
  exact hcount

omit [Inspectable α] in
/-- **A tour is an account** of the report that it outlines. -/
theorem Hierarchy.Tour.accounted {v : Verdict} (hc : (⟨page, []⟩ : Notes).Closed)
    (htargets : (targets es).Perm (trace.map Arrival.id)) (hv : v = .ofPieces pieces) :
    h.Accounted g page l es v pieces (ofKind .fresh trace) (ofKind .known trace)
      (ofKind .again trace) := by
  have hroot := ht.page_of_not_visited List.not_mem_nil
  have hsome : ∀ d ∈ ofKind .known trace, (page d).isSome := fun d hd => (ht.noted_of_known hd).1
  refine ⟨htargets.trans (Arrival.perm_map_id trace), ht.nodup, fun d hd => ht.page_eq_none hd,
    hsome, ?_, hv, hl.solid id pieces hroot, ht.perm_taken hl, ht.blocks_eq hl, fun d hd => ?_⟩
  · intro d hd
    have hm := ht.mem_targets_iff.1 (Arrival.mem_map_id_iff.2 (.inr (.inr hd)))
    exact List.mem_append.2 hm
  · have hzero : ((ofKind .known trace).map fun e => blocks d ((page e).getD [])).sum = 0 := by
      refine List.sum_eq_zero_iff_forall_eq_nat.2 (List.forall_mem_map.2 fun e he => ?_)
      obtain ⟨list, hlist⟩ := Option.isSome_iff_exists.1 (hsome e he)
      rw [hlist]
      exact (hc e list hlist).blocks_eq_zero hd
    rw [ht.blocks_eq hl d, hzero]
    split <;> simp

end Tour

/-- **The account of the report on a request.**  After any run of operations, let a registered class
be validated.  A class at which the request arrives is reported in full on the first arrival only:
with its own block and heading if nothing is recorded for it, and with all pieces of its record
otherwise.  Each other arrival adds one line if the class fails, and nothing else is in the report.
So the block of a class is there at most once, unless records with this block are taken over. -/
theorem Desk.report_accounted [DecidableEq κ] (qs : List (Request κ σ α)) (s₀ s : σ) (id : ClassId)
    (g : Generator σ α) (c : Config)
    (hid : id.index < (Desk.after qs s₀).registry.hierarchy.size) :
    let r := (Desk.after qs s₀).registry
    let result := (r.validate id g c).value s
    r.ledger.Booked (Desk.book qs s₀) ∧
      ∃ pieces settled taken again, r.hierarchy.Accounted g (Desk.book qs s₀ g.id)
        result.2.ledger ((r.validate id g c).events s) result.1 pieces settled taken again := by
  intro r result
  have hb : r.ledger.Booked (Desk.book qs s₀) := Desk.booked_after qs s₀
  obtain ⟨hvalue, hsolid, hcomposed, htargets⟩ :=
    r.validate_outline id g c s hid (hb.composed g.id)
  have ht := r.outline_tour id g c s hid ⟨Desk.book qs s₀ g.id, []⟩
  refine ⟨hb, _, _, _, _, ht.accounted hcomposed (hb.closed g.id) ?_ hvalue⟩
  exact List.Perm.of_eq htargets

/-! ### A block that is shown twice -/

namespace Verdict

/-- A failure of which the report contains a text twice. -/
def ShowsTwice (part : String) (v : Verdict) : Prop :=
  ∃ before between behind, v = .failure (before ++ part ++ between ++ part ++ behind)

theorem exists_intercalate_append (xs : List String) {ys : List String} (hy : ys ≠ []) :
    ∃ before, "\n\n".intercalate (xs ++ ys) = before ++ "\n\n".intercalate ys := by
  by_cases hx : xs = []
  · exact ⟨"", by rw [hx, List.nil_append, String.empty_append]⟩
  · exact ⟨_, String.intercalate_append_of_ne_nil hx hy⟩

theorem exists_intercalate_cons (part : String) (ys : List String) :
    ∃ behind, "\n\n".intercalate (part :: ys) = part ++ behind := by
  by_cases hy : ys = []
  · exact ⟨"", by rw [hy, String.intercalate_singleton, String.append_empty]⟩
  · refine ⟨"\n\n" ++ "\n\n".intercalate ys, ?_⟩
    rw [String.intercalate_cons_of_ne_nil hy, String.append_assoc]

/-- What is there twice among parts is shown twice. -/
theorem showsTwice_ofParts (xs ys zs : List String) (part : String) :
    (ofParts (xs ++ part :: (ys ++ part :: zs))).ShowsTwice part := by
  obtain ⟨before, hbefore⟩ := exists_intercalate_append xs
    (List.cons_ne_nil part (ys ++ part :: zs))
  obtain ⟨between, hbetween⟩ := exists_intercalate_append ys (List.cons_ne_nil part zs)
  obtain ⟨behind, hbehind⟩ := exists_intercalate_cons part zs
  refine ⟨before, "\n\n" ++ between, behind, ?_⟩
  rw [ofParts_of_ne_nil (by simp), hbefore, String.intercalate_cons_of_ne_nil (by simp), hbetween,
    hbehind]
  simp only [String.append_assoc]

end Verdict

namespace Diamond

/-- The classes join a registry, with a law on the first one that all values of `doubles` break,
and the second one is validated. -/
def leftFirst : List (Request Unit Unit Nat) :=
  failing.take 4 ++ [.validate ⟨1⟩ doubles config]

/-- The request on the fourth class takes the records of the second class and of the first one over,
and the block of the first one is in both. -/
theorem both_pieces :
    let outline := (Desk.after leftFirst ()).registry.outline ⟨3⟩ doubles config ()
    outline.value ⟨Desk.book leftFirst () doubles.id, []⟩ =
      [.prerequisites ⟨3⟩ "Doubles" "Both", .prerequisites ⟨2⟩ "Doubles" "Right",
        .own ⟨0⟩ "Doubles" "Odd" "Predicate odd failed with params 0",
        .prerequisites ⟨1⟩ "Doubles" "Left",
        .own ⟨0⟩ "Doubles" "Odd" "Predicate odd failed with params 0"] := by
  decide +kernel

/-- A report can show the block of a class twice. -/
theorem odd_shown_twice :
    ¬ ∀ (qs : List (Request Unit Unit Nat)) (s₀ s : Unit) (id : ClassId) (g : Generator Unit Nat)
        (c : Config),
        let r := (Desk.after qs s₀).registry
        let verdict := ((r.validate id g c).value s).1
        let made := Desk.history qs s₀ ++ (r.validate id g c).events s
        id.index < r.hierarchy.size → ∀ d report, r.hierarchy.Descends id d →
          closings g.id d made = [.failure report] →
            ¬ verdict.ShowsTwice (Piece.own d g.name (r.hierarchy.nameOf d) report).text := by
  intro hall
  have hid : (⟨3⟩ : ClassId).index < (Desk.after leftFirst ()).registry.hierarchy.size := by
    decide +kernel
  have hdescends : (Desk.after leftFirst ()).registry.hierarchy.Descends ⟨3⟩ ⟨0⟩ :=
    Hierarchy.mem_lineage_iff.1 (by decide +kernel)
  have hname : (Desk.after leftFirst ()).registry.hierarchy.nameOf ⟨0⟩ = "Odd" := by
    decide +kernel
  obtain ⟨hvalue, -⟩ := Registry.validate_outline _ ⟨3⟩ doubles config () hid
    ((Desk.booked_after leftFirst ()).composed doubles.id)
  apply hall leftFirst () () ⟨3⟩ doubles config hid ⟨0⟩ "Predicate odd failed with params 0"
    hdescends (by decide +kernel)
  rw [hvalue, both_pieces, hname]
  exact Verdict.showsTwice_ofParts [_, _] [_] [] _

/-- There is an account of this report. -/
theorem both_accounted :
    let r := (Desk.after leftFirst ()).registry
    let result := (r.validate ⟨3⟩ doubles config).value ()
    result.1 ≠ .success ∧ r.ledger.Booked (Desk.book leftFirst ()) ∧
      ∃ pieces settled taken again, r.hierarchy.Accounted doubles
        (Desk.book leftFirst () doubles.id) result.2.ledger
        ((r.validate ⟨3⟩ doubles config).events ()) result.1 pieces settled taken again := by
  dsimp only
  have hid : (⟨3⟩ : ClassId).index < (Desk.after leftFirst ()).registry.hierarchy.size := by
    decide +kernel
  exact ⟨by decide +kernel, Desk.report_accounted leftFirst () () ⟨3⟩ doubles config hid⟩

end Diamond

end Lawbook
