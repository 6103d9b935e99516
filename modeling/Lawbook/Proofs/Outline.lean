/-
Lawbook/Proofs/Outline.lean

Outlines: the pieces that the report on a request is made of.

There are three kinds of pieces: the block of a class whose own laws are broken, the heading of the
failures of parents, and the line for a failed class that is arrived at again.  An outline is the
walk of a request with everything else left out.  It lists pieces where the request joins texts,
takes the verdicts on the own laws as given, and tells for each arrival whether the class is new, is
known from an earlier request, or is arrived at again.

Main results: what a visit returns and records is made of the pieces of the outline, joined with one
blank line between, and the visit arrives where the outline does (`visit_outline`); hence the same
of a request (`Registry.validate_outline`).  The pieces that a class comes to are its own block
before the heading of its prerequisites, and behind that what its parents come to, the later parents
first (`joined_ofPieces`).
-/
import Lawbook.Proofs.Broken
import Lawbook.Proofs.Printed

namespace Lawbook

open Event

variable {κ σ α : Type}

/-! ### Pieces -/

/-- A piece of the report on a request. -/
inductive Piece where
  /-- The block of a class whose own laws are broken. -/
  | own (id : ClassId) (generator name report : String)
  /-- The heading of the failures of the parents of a class. -/
  | prerequisites (id : ClassId) (generator name : String)
  /-- The line for a failed class that is arrived at again. -/
  | again (id : ClassId) (generator name : String)
deriving DecidableEq

namespace Piece

/-- The text of a piece. -/
def text : Piece → String
  | own _ generator name report =>
    Text.trimEnd (Hierarchy.ownHeading generator name) ++ "\n\n" ++ report
  | prerequisites _ generator name =>
    Text.trimEnd (Hierarchy.prerequisitesHeading generator name)
  | again _ generator name => Hierarchy.againText name generator

/-- A piece of which the text ends in no blank. -/
def Solid (p : Piece) : Prop :=
  Text.Solid p.text

end Piece

/-- The verdict that reports pieces; without pieces, nothing is wrong. -/
def Verdict.ofPieces (pieces : List Piece) : Verdict :=
  .ofParts (pieces.map Piece.text)

/-- Nothing is wrong exactly if there is nothing to print. -/
theorem Verdict.ofPieces_eq_success_iff {pieces : List Piece} :
    Verdict.ofPieces pieces = .success ↔ pieces = [] := by
  rw [ofPieces, ofParts_eq_success_iff, List.map_eq_nil_iff]

namespace Hierarchy

variable {h : Hierarchy σ α} {generator : String} {id d : ClassId} {own : Verdict}

/-- The block of a class, if its own laws are broken. -/
def ownPieces (h : Hierarchy σ α) (generator : String) (id : ClassId) (own : Verdict) :
    List Piece :=
  own.report?.toList.map (.own id generator (h.nameOf id))

/-- The heading of the failures of the parents of a class. -/
def heading (h : Hierarchy σ α) (generator : String) (id : ClassId) : Piece :=
  .prerequisites id generator (h.nameOf id)

/-- The line for a class that is arrived at again. -/
def againPiece (h : Hierarchy σ α) (generator : String) (id : ClassId) : Piece :=
  .again id generator (h.nameOf id)

/-- What a class comes to, with what is taken over from its parents: its own block, and what the
parents come to under their heading, the later ones first. -/
def composed (h : Hierarchy σ α) (generator : String) (id : ClassId) (own : Verdict)
    (above : List (List Piece)) : List Piece :=
  h.ownPieces generator id own ++ headed (h.heading generator id) above.reverse.flatten

/-- What is taken over from a class that is arrived at again: one line if it fails. -/
def repeated (h : Hierarchy σ α) (generator : String) (id : ClassId) (pieces : List Piece) :
    List Piece :=
  if pieces = [] then [] else [h.againPiece generator id]

/-! ### The texts of pieces -/

/-- A heading can be joined with other pieces without a change, whatever the names in it are. -/
theorem solid_heading (h : Hierarchy σ α) (generator : String) (id : ClassId) :
    (h.heading generator id).Solid :=
  Text.solid_trimEnd (isBlankText_prerequisitesHeading _ _)

/-- The line for a class that failed already is not blank, even if both names are. -/
theorem isBlankText_againLine (name generator : String) :
    Text.isBlankText (againLine name generator) = false := by
  have hfixed : Text.isBlankText " already failed for " = false := by decide
  show Text.isBlankText (name ++ " already failed for " ++ generator) = false
  rw [Text.isBlankText_append, Text.isBlankText_append, hfixed, Bool.and_false, Bool.false_and]

theorem solid_againPiece (h : Hierarchy σ α) (generator : String) (id : ClassId) :
    (h.againPiece generator id).Solid :=
  Text.solid_trimEnd (isBlankText_againLine _ _)

/-- The own block of a class can be joined with other pieces without a change. -/
theorem solid_ownPieces (ho : own.Solid) : ∀ p ∈ h.ownPieces generator id own, p.Solid := by
  intro p hp
  obtain ⟨report, hr, rfl⟩ := List.mem_map.1 hp
  cases own with
  | success => exact absurd hr List.not_mem_nil
  | failure lawsReport =>
    obtain rfl := List.mem_singleton.1 hr
    exact (Verdict.solid_failure.1 ho).append_left _

theorem solid_flatten {above : List (List Piece)} (ha : ∀ list ∈ above, ∀ p ∈ list, p.Solid) :
    ∀ p ∈ above.reverse.flatten, p.Solid := by
  intro p hp
  obtain ⟨list, hlist, hm⟩ := List.mem_flatten.1 hp
  exact ha list (List.mem_reverse.1 hlist) p hm

/-- All pieces of a class can be joined without a change if those of its parents can. -/
theorem solid_composed {above : List (List Piece)} (ho : own.Solid)
    (ha : ∀ list ∈ above, ∀ p ∈ list, p.Solid) :
    ∀ p ∈ h.composed generator id own above, p.Solid := by
  refine List.forall_mem_append.2 ⟨solid_ownPieces ho, fun p hp => ?_⟩
  rcases mem_of_mem_headed hp with rfl | hp
  · exact h.solid_heading generator id
  · exact solid_flatten ha p hp

/-- What stands for a class that is arrived at again can be joined without a change. -/
theorem solid_repeated {pieces : List Piece} :
    ∀ p ∈ h.repeated generator id pieces, p.Solid := by
  intro p hp
  unfold repeated at hp
  split at hp
  · exact absurd hp List.not_mem_nil
  · exact List.mem_singleton.1 hp ▸ h.solid_againPiece generator id

/-- The own block of a class is one piece. -/
theorem under_ownHeading_ofPieces (ho : own.Solid) :
    own.under (ownHeading generator (h.nameOf id)) = .ofPieces (h.ownPieces generator id own) := by
  cases own with
  | success => rfl
  | failure report =>
    rw [under_ownHeading, ownBlock, Verdict.joinReports_eq (Verdict.solid_failure.1 ho)]
    exact (Verdict.ofParts_singleton _).symm

/-- What is taken over from parents is put under one heading. -/
theorem under_prerequisitesHeading_ofPieces {above : List (List Piece)}
    (ha : ∀ list ∈ above, ∀ p ∈ list, p.Solid) :
    (Verdict.all (above.map Verdict.ofPieces)).under
        (prerequisitesHeading generator (h.nameOf id)) =
      .ofPieces (headed (h.heading generator id) above.reverse.flatten) := by
  have htexts : ∀ texts ∈ above.map (List.map Piece.text), ∀ t ∈ texts, Text.Solid t :=
    List.forall_mem_map.2 fun list hlist => List.forall_mem_map.2 (ha list hlist)
  have hparts : ∀ t ∈ above.reverse.flatten.map Piece.text, Text.Solid t :=
    List.forall_mem_map.2 (solid_flatten ha)
  have hmap : above.map Verdict.ofPieces = (above.map (List.map Piece.text)).map .ofParts := by
    rw [List.map_map]
    rfl
  rw [hmap, Verdict.all_map_ofParts htexts, ← List.map_reverse, ← List.map_flatten,
    Verdict.under_ofParts (isBlankText_prerequisitesHeading _ _) hparts, Verdict.ofPieces,
    map_headed]
  rfl

/-- **What a class comes to is made of its pieces**, if what it takes over is. -/
theorem joined_ofPieces {above : List (List Piece)} (ho : own.Solid)
    (ha : ∀ list ∈ above, ∀ p ∈ list, p.Solid) :
    joined generator (h.nameOf id) (above.map Verdict.ofPieces) own =
      .ofPieces (h.composed generator id own above) := by
  have hheaded : ∀ t ∈ (headed (h.heading generator id) above.reverse.flatten).map Piece.text,
      Text.Solid t := by
    refine List.forall_mem_map.2 fun p hp => ?_
    exact solid_composed ho ha p (List.mem_append_right _ hp)
  rw [joined, under_prerequisitesHeading_ofPieces ha, under_ownHeading_ofPieces ho,
    Verdict.ofPieces, Verdict.ofPieces, Verdict.both_ofParts hheaded, ← List.map_append]
  rfl

/-- A class that is arrived at again says one line if it fails. -/
theorem recalled_false_ofPieces (pieces : List Piece) :
    recalled (h.nameOf id) generator false (.ofPieces pieces) =
      .ofPieces (h.repeated generator id pieces) := by
  unfold recalled repeated
  by_cases hp : pieces = []
  · rw [if_pos hp, hp]
    rfl
  · have hfails : (Verdict.ofPieces pieces).isSuccess = false := by
      rw [Bool.eq_false_iff]
      exact fun hs => hp (Verdict.ofPieces_eq_success_iff.1 (Verdict.isSuccess_iff.1 hs))
    rw [if_neg hp, hfails, Bool.or_false, if_neg Bool.false_ne_true,
      Verdict.fail_eq_failure (isBlankText_againLine _ _)]
    exact (Verdict.ofParts_singleton _).symm

end Hierarchy

/-! ### Outlines -/

/-- What an outline carries from class to class: the pieces of what is recorded, and the classes
that it has arrived at. -/
structure Notes where
  page : ClassId → Option (List Piece)
  visited : List ClassId

namespace Notes

/-- Notes with nothing in them. -/
def blank : Notes := ⟨fun _ => none, []⟩

/-- The notes after an arrival at a class. -/
def mark (id : ClassId) (n : Notes) : Notes :=
  if id ∈ n.visited then n else { n with visited := id :: n.visited }

/-- Writes the pieces of a class down, unless there are some already. -/
def note (id : ClassId) (pieces : List Piece) (n : Notes) : Notes :=
  { n with page := fun d => (n.page d).or (if id = d then some pieces else none) }

@[simp] theorem page_mark (id : ClassId) (n : Notes) : (n.mark id).page = n.page := by
  unfold mark
  split <;> rfl

/-- The pieces noted for a class are the first ones: later ones are for other classes. -/
theorem page_note (id d : ClassId) (pieces : List Piece) (n : Notes) :
    (n.note id pieces).page d = (n.page d).or (if id = d then some pieces else none) := rfl

@[simp] theorem visited_note (id : ClassId) (pieces : List Piece) (n : Notes) :
    (n.note id pieces).visited = n.visited := rfl

/-- After an arrival, the class has been visited, and all others are as before. -/
@[simp] theorem mem_visited_mark {id d : ClassId} {n : Notes} :
    d ∈ (n.mark id).visited ↔ d = id ∨ d ∈ n.visited := by
  unfold mark
  split
  · next hm =>
    constructor
    · exact .inr
    · rintro (rfl | hd)
      · exact hm
      · exact hd
  · exact List.mem_cons

end Notes

/-- How an outline arrives at a class. -/
inductive Arrival.Kind where
  /-- Nothing is recorded for the class. -/
  | fresh
  /-- The class was recorded before, and is arrived at for the first time. -/
  | known
  /-- The class was arrived at before. -/
  | again
deriving DecidableEq

/-- An arrival at a class. -/
structure Arrival where
  kind : Arrival.Kind
  id : ClassId
deriving DecidableEq

namespace Hierarchy

/-- The walk from the class `id` for a number below the bound, with the verdicts `own` on the laws
of the classes themselves. -/
def outline (h : Hierarchy σ α) (generator : String) (own : ClassId → Verdict) :
    Nat → ClassId → Run Notes Arrival (List Piece)
  | 0, _ => return []
  | bound + 1, id => fun notes =>
    match h.class? id with
    | none => ([], notes, [])
    | some cls =>
      match notes.page id with
      | some pieces =>
        if id ∈ notes.visited then (h.repeated generator id pieces, notes, [⟨.again, id⟩])
        else (pieces, notes.mark id, [⟨.known, id⟩])
      | none =>
        let above := cls.parents.mapM (outline h generator own bound)
        let pieces := h.composed generator id (own id) (above.value (notes.mark id))
        (pieces, (above.final (notes.mark id)).note id pieces,
          ⟨.fresh, id⟩ :: above.events (notes.mark id))

variable {h : Hierarchy σ α} {generator : String} {own : ClassId → Verdict} {n : Nat}
variable {id : ClassId} {cls : Class σ α} {notes : Notes} {pieces : List Piece}

/-- A class that is not there has no pieces, and leaves no notes. -/
theorem outline_unknown (hc : h.class? id = none) :
    h.outline generator own (n + 1) id notes = ([], notes, []) := by
  simp [outline, hc]

/-- A class that was visited before comes with one line if it failed, and with nothing otherwise. -/
theorem outline_again (hc : h.class? id = some cls) (hp : notes.page id = some pieces)
    (hm : id ∈ notes.visited) :
    h.outline generator own (n + 1) id notes =
      (h.repeated generator id pieces, notes, [⟨.again, id⟩]) := by
  simp [outline, hc, hp, hm]

/-- A class that was recorded before this request comes with the pieces of its record. -/
theorem outline_known (hc : h.class? id = some cls) (hp : notes.page id = some pieces)
    (hm : id ∉ notes.visited) :
    h.outline generator own (n + 1) id notes = (pieces, notes.mark id, [⟨.known, id⟩]) := by
  simp [outline, hc, hp, hm]

/-- Any other class comes with the pieces of its parents, in turn, and with its own. -/
theorem outline_fresh (hc : h.class? id = some cls) (hp : notes.page id = none) :
    let above := cls.parents.mapM (h.outline generator own n)
    let pieces := h.composed generator id (own id) (above.value (notes.mark id))
    h.outline generator own (n + 1) id notes =
      (pieces, (above.final (notes.mark id)).note id pieces,
        ⟨.fresh, id⟩ :: above.events (notes.mark id)) := by
  simp [outline, hc, hp]

end Hierarchy

/-! ### Arrivals of a request -/

namespace Event

/-- The class that a walk arrives at. -/
def target? : Event α → Option ClassId
  | reached id => some id
  | _ => none

/-- The classes that a walk arrives at, in order. -/
def targets (es : List (Event α)) : List ClassId :=
  es.filterMap target?

@[simp] theorem targets_append (es es' : List (Event α)) :
    targets (es ++ es') = targets es ++ targets es' :=
  List.filterMap_append

@[simp] theorem targets_reached_cons (id : ClassId) (es : List (Event α)) :
    targets (reached id :: es) = id :: targets es := rfl

/-- Where no walk goes on, there are no targets. -/
theorem targets_eq_nil_of_arrivals {es : List (Event α)} (ha : arrivals es = 0) :
    targets es = [] := by
  refine List.filterMap_eq_nil_iff.2 fun e he => ?_
  have hno := List.countP_eq_zero.1 ha e he
  cases e <;> simp_all [isArrival, target?]

end Event

/-! ### Visits follow their outline -/

/-- The pieces of each record for a generator. -/
structure Ledger.Composed (l : Ledger) (k : GeneratorId) (page : ClassId → Option (List Piece)) :
    Prop where
  verdict?_eq : ∀ d, l.verdict? k d = (page d).map Verdict.ofPieces
  solid : ∀ d pieces, page d = some pieces → ∀ p ∈ pieces, p.Solid

/-- A record and a note about the same class keep ledger and notes in step. -/
theorem Ledger.Composed.record {l : Ledger} {k : GeneratorId} {n : Notes} (hl : l.Composed k n.page)
    (id : ClassId) {pieces : List Piece} (hp : ∀ p ∈ pieces, p.Solid) :
    (l.record k id (.ofPieces pieces)).Composed k (n.note id pieces).page := by
  constructor
  · intro d
    rw [Ledger.verdict?_record, hl.verdict?_eq, Notes.page_note]
    by_cases hd : id = d
    · cases n.page d <;> simp [hd]
    · cases n.page d <;> simp [hd]
  · intro d list hlist
    rcases Option.or_eq_some_iff.1 hlist with hold | ⟨-, hnew⟩
    · exact hl.solid d list hold
    · obtain ⟨-, ⟨⟩⟩ := Option.ite_none_right_eq_some.1 hnew
      exact hp

namespace Hierarchy

/-- A survey and notes that agree. -/
structure Tracks (k : GeneratorId) (s : Survey σ) (n : Notes) : Prop where
  composed : s.ledger.Composed k n.page
  visited_eq : s.visited = n.visited

/-- An arrival keeps survey and notes in step. -/
theorem Tracks.mark {k : GeneratorId} {s : Survey σ} {n : Notes} (ht : Tracks k s n)
    (id : ClassId) : Tracks k (s.mark id) (n.mark id) := by
  refine ⟨?_, ?_⟩
  · rw [Survey.ledger_mark, Notes.page_mark]
    exact ht.composed
  · rw [Survey.mark, Notes.mark, ht.visited_eq]
    split
    · exact ht.visited_eq
    · rfl

/-- A visit that comes to `v` follows an outline that comes to `pieces`. -/
structure Follows (k : GeneratorId) (v : Verdict) (t : Survey σ) (es : List (Event α))
    (pieces : List Piece) (n : Notes) (trace : List Arrival) : Prop where
  value_eq : v = .ofPieces pieces
  solid : ∀ p ∈ pieces, p.Solid
  tracks : Tracks k t n
  targets_eq : targets es = trace.map Arrival.id

variable [Inspectable α]

variable {h : Hierarchy σ α} {g : Generator σ α} {c : Config} {own : ClassId → Verdict} {n : Nat}
variable {id : ClassId} {cls : Class σ α} {s : Survey σ} {notes : Notes}

/-- A visit to a class that is recorded follows its outline: it takes the record over, or says one
line if it has been there. -/
theorem visit_outline_known {pieces : List Piece} (hc : h.class? id = some cls)
    (hpage : notes.page id = some pieces) (ht : Tracks g.id s notes) :
    Follows g.id ((h.visit g c (n + 1) id).value s) ((h.visit g c (n + 1) id).final s)
      ((h.visit g c (n + 1) id).events s) ((h.outline g.name own (n + 1) id).value notes)
      ((h.outline g.name own (n + 1) id).final notes)
      ((h.outline g.name own (n + 1) id).events notes) := by
  have hrec : s.ledger.verdict? g.id id = some (.ofPieces pieces) := by
    rw [ht.composed.verdict?_eq id, hpage]
    rfl
  show Follows g.id (h.visit g c (n + 1) id s).1 (h.visit g c (n + 1) id s).2.1
    (h.visit g c (n + 1) id s).2.2 (h.outline g.name own (n + 1) id notes).1
    (h.outline g.name own (n + 1) id notes).2.1 (h.outline g.name own (n + 1) id notes).2.2
  by_cases hm : id ∈ notes.visited
  · have hs : id ∈ s.visited := ht.visited_eq ▸ hm
    have hmark : s.mark id = s := if_pos hs
    rw [visit_known hc hrec, outline_again hc hpage hm, decide_eq_false (not_not_intro hs), hmark,
      ← nameOf_eq hc]
    exact ⟨recalled_false_ofPieces pieces, solid_repeated, ht, rfl⟩
  · have hs : id ∉ s.visited := ht.visited_eq ▸ hm
    rw [visit_known hc hrec, outline_known hc hpage hm, decide_eq_true hs]
    exact ⟨recalled_true cls.name g.name _, ht.composed.solid id pieces hpage, ht.mark id, rfl⟩

/-- The visits of several classes follow their outlines if each visit does. -/
theorem visitEach_outline
    (hvisit : ∀ id (s : Survey σ) notes, id.index < n → id.index < h.size →
      Tracks g.id s notes →
      (∀ d v, closed d g.id v ∈ (h.visit g c n id).events s → own d = v) →
      Follows g.id ((h.visit g c n id).value s) ((h.visit g c n id).final s)
        ((h.visit g c n id).events s) ((h.outline g.name own n id).value notes)
        ((h.outline g.name own n id).final notes) ((h.outline g.name own n id).events notes))
    (roots : List ClassId) (s : Survey σ) (notes : Notes)
    (hr : ∀ p ∈ roots, p.index < n ∧ p.index < h.size) (ht : Tracks g.id s notes)
    (hown : ∀ d v, closed d g.id v ∈ (roots.mapM (h.visit g c n)).events s → own d = v) :
    let walk := roots.mapM (h.visit g c n)
    let lists := roots.mapM (h.outline g.name own n)
    walk.value s = (lists.value notes).map .ofPieces ∧
      (∀ list ∈ lists.value notes, ∀ p ∈ list, p.Solid) ∧
      Tracks g.id (walk.final s) (lists.final notes) ∧
      targets (walk.events s) = (lists.events notes).map Arrival.id := by
  induction roots generalizing s notes with
  | nil => exact ⟨rfl, List.forall_mem_nil _, ht, rfl⟩
  | cons p roots ih =>
    obtain ⟨hp, hroots⟩ := List.forall_mem_cons.1 hr
    simp only [Run.value_mapM_cons, Run.final_mapM_cons, Run.events_mapM_cons] at hown ⊢
    have hfirst := hvisit p s notes hp.1 hp.2 ht fun d v hm => hown d v (List.mem_append_left _ hm)
    obtain ⟨hvalue, hsolid, htracks, htargets⟩ := ih ((h.visit g c n p).final s)
      ((h.outline g.name own n p).final notes) hroots hfirst.tracks
      fun d v hm => hown d v (List.mem_append_right _ hm)
    refine ⟨?_, List.forall_mem_cons.2 ⟨hfirst.solid, hsolid⟩, htracks, ?_⟩
    · rw [List.map_cons, hvalue, hfirst.value_eq]
    · rw [targets_append, List.map_append, htargets, hfirst.targets_eq]

/-- **A visit follows its outline.** -/
theorem visit_outline : ∀ (n : Nat) (id : ClassId) (s : Survey σ) (notes : Notes),
    id.index < n → id.index < h.size → Tracks g.id s notes →
    (∀ d v, closed d g.id v ∈ (h.visit g c n id).events s → own d = v) →
    Follows g.id ((h.visit g c n id).value s) ((h.visit g c n id).final s)
      ((h.visit g c n id).events s) ((h.outline g.name own n id).value notes)
      ((h.outline g.name own n id).final notes) ((h.outline g.name own n id).events notes) := by
  intro n
  induction n with
  | zero => exact fun id s notes hn _ _ _ => absurd hn (Nat.not_lt_zero _)
  | succ n ih =>
    intro id s notes hn hid ht hown
    obtain ⟨cls, hc⟩ := exists_class?_of_lt hid
    cases hpage : notes.page id with
    | some pieces => exact visit_outline_known hc hpage ht
    | none =>
      have hrec : s.ledger.verdict? g.id id = none := by
        rw [ht.composed.verdict?_eq id, hpage]
        rfl
      show Follows g.id (h.visit g c (n + 1) id s).1 (h.visit g c (n + 1) id s).2.1
        (h.visit g c (n + 1) id s).2.2 (h.outline g.name own (n + 1) id notes).1
        (h.outline g.name own (n + 1) id notes).2.1 (h.outline g.name own (n + 1) id notes).2.2
      have hparents : ∀ p ∈ cls.parents, p.index < n ∧ p.index < h.size := by
        intro p hp
        have hlt := h.parents_lt _ _ hc p hp
        omega
      rw [Run.events, visit_fresh hc hrec] at hown
      obtain ⟨hvalue, hsolid, htracks, htargets⟩ := visitEach_outline ih cls.parents (s.mark id)
        (notes.mark id) hparents (ht.mark id) fun d v hm =>
          hown d v (List.mem_cons_of_mem _ (List.mem_append_left _ hm))
      -- the laws of the class itself are checked last
      have howns : own id = (cls.checkLaws id g c).value
          ((cls.parents.mapM (h.visit g c n)).final (s.mark id)).host := by
        refine hown id _ (List.mem_cons_of_mem _ (List.mem_append_right _ ?_))
        rw [Class.events_checkLaws]
        simp
      have hos : (own id).Solid := by
        rw [howns, Class.value_checkLaws]
        exact (cls.laws.reported_check g c _).1
      have hcomposed : ∀ p ∈ h.composed g.name id (own id)
          ((cls.parents.mapM (h.outline g.name own n)).value (notes.mark id)), p.Solid :=
        solid_composed hos hsolid
      rw [visit_fresh hc hrec, outline_fresh hc hpage, hvalue, ← howns, ← nameOf_eq hc,
        joined_ofPieces hos hsolid]
      refine ⟨rfl, hcomposed, ⟨htracks.composed.record id hcomposed, htracks.visited_eq⟩, ?_⟩
      rw [targets_reached_cons, targets_append, htargets,
        targets_eq_nil_of_arrivals (Class.arrivals_checkLaws cls id g c _), List.append_nil]
      rfl

end Hierarchy

/-! ### Requests follow their outline -/

variable [Inspectable α]

/-- The verdict on the own laws of a class among events. -/
def Event.ownVerdict (k : GeneratorId) (es : List (Event α)) (d : ClassId) : Verdict :=
  (closings k d es).headD .success

omit [Inspectable α] in
/-- A class that is closed at most once was closed with the verdict that is found. -/
theorem Event.ownVerdict_eq {k : GeneratorId} {es : List (Event α)} {d : ClassId} {v : Verdict}
    (hlength : (closings k d es).length ≤ 1) (hm : closed d k v ∈ es) : ownVerdict k es d = v := by
  have hv := mem_closings_iff.2 hm
  unfold ownVerdict
  match hes : closings k d es with
  | [] => exact absurd (hes ▸ hv) List.not_mem_nil
  | [w] => exact (List.mem_singleton.1 (hes ▸ hv)).symm
  | _ :: _ :: _ =>
    rw [hes] at hlength
    exact absurd hlength (by simp)

namespace Registry

variable (r : Registry σ α) (id : ClassId) (g : Generator σ α) (c : Config) (s : σ)

/-- The outline of a request. -/
def outline : Run Notes Arrival (List Piece) :=
  r.hierarchy.outline g.name (ownVerdict g.id ((r.validate id g c).events s)) (id.index + 1) id

/-- Each check that a request opens is closed. -/
theorem closings_length_eq (k : GeneratorId) (d : ClassId) :
    (closings k d ((r.validate id g c).events s)).length =
      (openings k d ((r.validate id g c).events s)).length := by
  by_cases hid : id.index < r.hierarchy.size
  · obtain ⟨plan, hp⟩ := validate_settles r id g c s hid
    rw [← closings_work, ← openings_work, hp.settles.closings_length_eq]
  · rw [Run.events, validate_unknown r id g c s hid]
    rfl

/-- A request checks the laws of a class once or not at all. -/
theorem closings_length_le (hid : id.index < r.hierarchy.size) (k : GeneratorId) (d : ClassId) :
    (closings k d ((r.validate id g c).events s)).length ≤ 1 := by
  obtain ⟨plan, hp⟩ := validate_settles r id g c s hid
  rw [closings_length_eq, ← openings_work, hp.settles.openings_eq]
  split <;> simp

/-- **A request follows its outline.** -/
theorem validate_outline (hid : id.index < r.hierarchy.size) {page : ClassId → Option (List Piece)}
    (hp : r.ledger.Composed g.id page) :
    ((r.validate id g c).value s).1 = .ofPieces ((r.outline id g c s).value ⟨page, []⟩) ∧
      (∀ p ∈ (r.outline id g c s).value ⟨page, []⟩, p.Solid) ∧
      ((r.validate id g c).value s).2.ledger.Composed g.id
        ((r.outline id g c s).final ⟨page, []⟩).page ∧
      targets ((r.validate id g c).events s) =
        ((r.outline id g c s).events ⟨page, []⟩).map Arrival.id := by
  have hown : ∀ d v, closed d g.id v ∈ (r.hierarchy.visit g c (id.index + 1) id).events
      ⟨s, r.ledger, []⟩ → ownVerdict g.id ((r.validate id g c).events s) d = v := by
    intro d v hm
    refine ownVerdict_eq (r.closings_length_le id g c s hid g.id d) ?_
    rw [Run.events, validate_eq]
    exact List.mem_append_left _ hm
  have hf := Hierarchy.visit_outline (id.index + 1) id ⟨s, r.ledger, []⟩ ⟨page, []⟩
    (Nat.lt_succ_self _) hid ⟨hp, rfl⟩ hown
  refine ⟨hf.value_eq, hf.solid, hf.tracks.composed, ?_⟩
  have htargets := hf.targets_eq
  rw [Run.events, validate_eq, targets_append]
  exact (List.append_nil (targets _)).trans htargets

end Registry

end Lawbook
