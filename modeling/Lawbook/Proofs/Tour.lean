/-
Lawbook/Proofs/Tour.lean

Tours: what the pieces of an outline add up to.

An outline goes from class to class by one of three steps, one for each kind of arrival.  `Tour` is
the relation of these steps, for a walk that arrives at several classes in turn.  It has no bound
and no case that does not occur, so each fact about outlines is one induction over the steps.

Main results: each arrival is at one of the first classes or goes over one parent edge of a class
that is settled, and each such edge is gone over once (`Tour.perm_targets`); no class is settled or
known twice (`Tour.nodup`); and the pieces are, in some order, the own blocks and headings of the
classes that are settled, all pieces of the classes that are known, and one line for each failed
class that is arrived at again (`Tour.perm_pieces`).  In which order they stand is told by
`Tour.arranged`, class by class.
-/
import Lawbook.Proofs.Outline

namespace Lawbook

variable {σ α : Type}

/-! ### Arrivals of one kind -/

namespace Arrival

/-- The classes of the arrivals of one kind, in order. -/
def ofKind (kind : Kind) (trace : List Arrival) : List ClassId :=
  trace.filterMap fun a => if a.kind = kind then some a.id else none

variable {kind kind' : Kind} {d : ClassId} {trace trace' : List Arrival}

@[simp] theorem ofKind_nil : ofKind kind [] = [] := rfl

@[simp] theorem ofKind_cons : ofKind kind (⟨kind', d⟩ :: trace) =
    if kind' = kind then d :: ofKind kind trace else ofKind kind trace := by
  unfold ofKind
  rw [List.filterMap_cons]
  split <;> simp_all

@[simp] theorem ofKind_append :
    ofKind kind (trace ++ trace') = ofKind kind trace ++ ofKind kind trace' :=
  List.filterMap_append

theorem mem_map_id_iff : d ∈ trace.map id ↔
    d ∈ ofKind .fresh trace ∨ d ∈ ofKind .known trace ∨ d ∈ ofKind .again trace := by
  induction trace with
  | nil => simp
  | cons a trace ih =>
    obtain ⟨kind, e⟩ := a
    rw [List.map_cons, List.mem_cons, ih]
    cases kind <;> simp [or_assoc, or_left_comm]

/-- Each arrival is of one of the three kinds. -/
theorem perm_map_id (trace : List Arrival) :
    (trace.map id).Perm
      (ofKind .fresh trace ++ ofKind .known trace ++ ofKind .again trace) := by
  rw [List.perm_iff_count]
  intro d
  induction trace with
  | nil => rfl
  | cons a trace ih =>
    obtain ⟨kind, e⟩ := a
    simp only [List.count_append] at ih ⊢
    rw [List.map_cons, List.count_cons, ih]
    cases kind <;> simp [List.count_cons] <;> omega

end Arrival

/-! ### Pages -/

namespace Notes

variable {n : Notes} {id d : ClassId} {pieces : List Piece} {page : ClassId → List Piece}

theorem isSome_note : ((n.note id pieces).page d).isSome ↔ (n.page d).isSome ∨ d = id := by
  rw [page_note, Option.isSome_or, Bool.or_eq_true]
  by_cases hd : id = d
  · simp [hd]
  · simp [hd, Ne.symm hd]

/-- All pieces that are noted are on a page. -/
def On (n : Notes) (page : ClassId → List Piece) : Prop :=
  ∀ d pieces, n.page d = some pieces → page d = pieces

/-- The pieces that are noted for a class, if there are any. -/
def piecesOf (n : Notes) (d : ClassId) : List Piece :=
  (n.page d).getD []

theorem on_piecesOf (n : Notes) : n.On n.piecesOf := by
  intro d pieces hd
  rw [piecesOf, hd]
  rfl

theorem On.of_note (hn : (n.note id pieces).On page) : n.On page := by
  intro d list hd
  apply hn
  rw [page_note, hd]
  rfl

end Notes

open Arrival

/-! ### Steps of an outline -/

namespace Hierarchy

section Steps

variable (h : Hierarchy σ α) (generator : String) (own : ClassId → Verdict)

/-- An outline arrives at several classes in turn, with the notes `n` at first and the lists of
pieces that it takes over from them. -/
inductive Tour :
    Notes → List ClassId → Notes → List (List Piece) → List Arrival → Prop
  | nil {n} : Tour n [] n [] []
  | again {n n' p roots pieces lists trace} :
      n.page p = some pieces →
      p ∈ n.visited →
      Tour n roots n' lists trace →
      Tour n (p :: roots) n' (h.repeated generator p pieces :: lists) (⟨.again, p⟩ :: trace)
  | known {n n' p roots pieces lists trace} :
      n.page p = some pieces →
      p ∉ n.visited →
      Tour (n.mark p) roots n' lists trace →
      Tour n (p :: roots) n' (pieces :: lists) (⟨.known, p⟩ :: trace)
  | fresh {n n₁ n₂ p roots above lists trace₁ trace₂} :
      n.page p = none →
      Tour (n.mark p) (h.parentsOf p) n₁ above trace₁ →
      Tour (n₁.note p (h.composed generator p (own p) above)) roots n₂ lists trace₂ →
      Tour n (p :: roots) n₂ (h.composed generator p (own p) above :: lists)
        (⟨.fresh, p⟩ :: (trace₁ ++ trace₂))

end Steps

variable {h : Hierarchy σ α} {generator : String} {own : ClassId → Verdict}
variable {n n' n₁ n₂ : Notes} {d p : ClassId} {roots roots' : List ClassId} {pieces : List Piece}
variable {lists lists' : List (List Piece)} {trace trace' : List Arrival}

theorem Tour.append (ht : h.Tour generator own n roots n₁ lists trace)
    (ht' : h.Tour generator own n₁ roots' n₂ lists' trace') :
    h.Tour generator own n (roots ++ roots') n₂ (lists ++ lists') (trace ++ trace') := by
  induction ht with
  | nil => exact ht'
  | again hp hm _ ih => exact .again hp hm (ih ht')
  | known hp hm _ ih => exact .known hp hm (ih ht')
  | @fresh n _ _ p roots above lists trace₁ trace₂ hp habove _ _ ih =>
    show h.Tour generator own n (p :: (roots ++ roots')) _
      (h.composed generator p (own p) above :: (lists ++ lists'))
      (⟨.fresh, p⟩ :: (trace₁ ++ trace₂ ++ trace'))
    rw [List.append_assoc]
    exact .fresh hp habove (ih ht')

theorem outlineEach_tour {bound : Nat}
    (houtline : ∀ p n, p.index < bound → p.index < h.size →
      h.Tour generator own n [p] ((h.outline generator own bound p).final n)
        [(h.outline generator own bound p).value n] ((h.outline generator own bound p).events n))
    (roots : List ClassId) (n : Notes) (hr : ∀ p ∈ roots, p.index < bound ∧ p.index < h.size) :
    let walk := roots.mapM (h.outline generator own bound)
    h.Tour generator own n roots (walk.final n) (walk.value n) (walk.events n) := by
  induction roots generalizing n with
  | nil => exact .nil
  | cons p roots ih =>
    obtain ⟨hp, hroots⟩ := List.forall_mem_cons.1 hr
    simp only [Run.value_mapM_cons, Run.final_mapM_cons, Run.events_mapM_cons]
    exact (houtline p n hp.1 hp.2).append (ih _ hroots)

/-- **An outline is a tour** that arrives at one class. -/
theorem outline_tour : ∀ (bound : Nat) (p : ClassId) (n : Notes), p.index < bound →
    p.index < h.size →
    h.Tour generator own n [p] ((h.outline generator own bound p).final n)
      [(h.outline generator own bound p).value n]
      ((h.outline generator own bound p).events n) := by
  intro bound
  induction bound with
  | zero => exact fun p n hb _ => absurd hb (Nat.not_lt_zero _)
  | succ bound ih =>
    intro p n hb hp
    obtain ⟨cls, hc⟩ := exists_class?_of_lt hp
    show h.Tour generator own n [p] (h.outline generator own (bound + 1) p n).2.1
      [(h.outline generator own (bound + 1) p n).1] (h.outline generator own (bound + 1) p n).2.2
    cases hpage : n.page p with
    | some pieces =>
      by_cases hm : p ∈ n.visited
      · rw [outline_again hc hpage hm]
        exact .again hpage hm .nil
      · rw [outline_known hc hpage hm]
        exact .known hpage hm .nil
    | none =>
      have hparents : ∀ q ∈ h.parentsOf p, q.index < bound ∧ q.index < h.size := by
        intro q hq
        have hlt := lt_of_mem_parentsOf hq
        omega
      rw [outline_fresh hc hpage, ← parentsOf_eq hc]
      have htour := outlineEach_tour ih (h.parentsOf p) (n.mark p) hparents
      rw [← List.append_nil (Run.events _ _)]
      exact .fresh hpage htour .nil

/-! ### What a tour leaves in the notes -/

/-- Pieces that are noted stay. -/
theorem Tour.keeps (ht : h.Tour generator own n roots n' lists trace)
    (hd : n.page d = some pieces) : n'.page d = some pieces := by
  induction ht with
  | nil => exact hd
  | again _ _ _ ih => exact ih hd
  | known _ _ _ ih => exact ih (by rwa [Notes.page_mark])
  | fresh _ _ _ ih₁ ih₂ =>
    apply ih₂
    have hkept := ih₁ (by rwa [Notes.page_mark])
    rw [Notes.page_note, hkept]
    rfl

/-- A tour visits what it settles and what it knows. -/
theorem Tour.mem_visited_iff (ht : h.Tour generator own n roots n' lists trace) :
    d ∈ n'.visited ↔
      d ∈ n.visited ∨ d ∈ ofKind .fresh trace ∨ d ∈ ofKind .known trace := by
  induction ht with
  | nil => simp
  | again _ _ _ ih => simpa using ih
  | known _ _ _ ih =>
    rw [ih, Notes.mem_visited_mark]
    simp [or_assoc, or_left_comm]
  | fresh _ _ _ ih₁ ih₂ =>
    rw [ih₂, Notes.visited_note, ih₁, Notes.mem_visited_mark]
    simp only [ofKind_cons, ofKind_append, if_true, reduceCtorEq, if_false, List.mem_cons,
      List.mem_append]
    simp only [or_assoc, or_left_comm]

/-- What is noted afterwards was noted before or is settled. -/
theorem Tour.isSome_iff (ht : h.Tour generator own n roots n' lists trace) :
    (n'.page d).isSome ↔ (n.page d).isSome ∨ d ∈ ofKind .fresh trace := by
  induction ht with
  | nil => simp
  | again _ _ _ ih => simpa using ih
  | known _ _ _ ih => simpa using ih
  | fresh _ _ _ ih₁ ih₂ =>
    rw [ih₂, Notes.isSome_note, ih₁, Notes.page_mark]
    simp only [ofKind_cons, ofKind_append, if_true, List.mem_cons, List.mem_append]
    simp only [or_assoc, or_left_comm, or_comm]

/-- Nothing was noted for a class that is settled. -/
theorem Tour.page_eq_none (ht : h.Tour generator own n roots n' lists trace)
    (hd : d ∈ ofKind .fresh trace) : n.page d = none := by
  induction ht with
  | nil => exact absurd hd List.not_mem_nil
  | again _ _ _ ih => exact ih (by simpa using hd)
  | known _ _ _ ih =>
    rw [← Notes.page_mark]
    exact ih (by simpa using hd)
  | @fresh n n₁ n₂ p roots above lists trace₁ trace₂ hp ht₁ _ ih₁ ih₂ =>
    simp only [ofKind_cons, ofKind_append, if_true, List.mem_cons, List.mem_append] at hd
    rcases hd with rfl | hd | hd
    · exact hp
    · rw [← Notes.page_mark]
      exact ih₁ hd
    -- it had no note when the tour came back from the parents, and notes are never taken away
    · have hnone := ih₂ hd
      rw [← Option.not_isSome_iff_eq_none, Notes.isSome_note, ht₁.isSome_iff,
        Notes.page_mark] at hnone
      rw [← Option.not_isSome_iff_eq_none]
      exact fun hs => hnone (.inl (.inl hs))

/-- A class that is known was noted before, and was not visited. -/
theorem Tour.noted_of_known (ht : h.Tour generator own n roots n' lists trace)
    (hd : d ∈ ofKind .known trace) : (n.page d).isSome ∧ d ∉ n.visited := by
  induction ht with
  | nil => exact absurd hd List.not_mem_nil
  | again _ _ _ ih => exact ih (by simpa using hd)
  | @known n n' p roots pieces lists trace hp hm _ ih =>
    simp only [ofKind_cons, if_true, List.mem_cons] at hd
    rcases hd with rfl | hd
    · exact ⟨by rw [hp]; rfl, hm⟩
    · obtain ⟨hs, hv⟩ := ih hd
      rw [Notes.page_mark] at hs
      exact ⟨hs, fun hin => hv (Notes.mem_visited_mark.2 (.inr hin))⟩
  | @fresh n n₁ n₂ p roots above lists trace₁ trace₂ hp ht₁ _ ih₁ ih₂ =>
    have hmark : ∀ {x}, x ∉ (n.mark p).visited → x ∉ n.visited :=
      fun hx hin => hx (Notes.mem_visited_mark.2 (.inr hin))
    simp only [ofKind_cons, ofKind_append, reduceCtorEq, if_false, List.mem_append] at hd
    rcases hd with hd | hd
    · obtain ⟨hs, hv⟩ := ih₁ hd
      rw [Notes.page_mark] at hs
      exact ⟨hs, hmark hv⟩
    · -- what was settled meanwhile is visited, and so was not known
      obtain ⟨hs, hv⟩ := ih₂ hd
      rw [Notes.visited_note, ht₁.mem_visited_iff, not_or, not_or] at hv
      rw [Notes.isSome_note, ht₁.isSome_iff, Notes.page_mark] at hs
      refine ⟨?_, hmark hv.1⟩
      rcases hs with (hs | hs) | rfl
      · exact hs
      · exact absurd hs hv.2.1
      · exact absurd (Notes.mem_visited_mark.2 (.inl rfl)) hv.1

/-- A class that is arrived at again is visited. -/
theorem Tour.visited_of_again (ht : h.Tour generator own n roots n' lists trace)
    (hd : d ∈ ofKind .again trace) : d ∈ n'.visited := by
  induction ht with
  | nil => exact absurd hd List.not_mem_nil
  | again _ hm ht ih =>
    simp only [ofKind_cons, if_true, List.mem_cons] at hd
    rcases hd with rfl | hd
    · exact ht.mem_visited_iff.2 (.inl hm)
    · exact ih hd
  | known _ _ _ ih => exact ih (by simpa using hd)
  | fresh _ _ ht₂ ih₁ ih₂ =>
    simp only [ofKind_cons, ofKind_append, reduceCtorEq, if_false, List.mem_append] at hd
    rcases hd with hd | hd
    · exact ht₂.mem_visited_iff.2 (.inl (ih₁ hd))
    · exact ih₂ hd

/-! ### Where a tour arrives -/

/-- A tour stays among the ancestors of the classes that it first arrives at. -/
theorem Tour.descends (ht : h.Tour generator own n roots n' lists trace)
    (hd : d ∈ ofKind .fresh trace) : ∃ p ∈ roots, h.Descends p d := by
  induction ht with
  | nil => exact absurd hd List.not_mem_nil
  | again _ _ _ ih =>
    obtain ⟨q, hq, hqd⟩ := ih (by simpa using hd)
    exact ⟨q, List.mem_cons_of_mem _ hq, hqd⟩
  | known _ _ _ ih =>
    obtain ⟨q, hq, hqd⟩ := ih (by simpa using hd)
    exact ⟨q, List.mem_cons_of_mem _ hq, hqd⟩
  | fresh _ _ _ ih₁ ih₂ =>
    simp only [ofKind_cons, ofKind_append, if_true, List.mem_cons, List.mem_append] at hd
    rcases hd with rfl | hd | hd
    · exact ⟨_, List.mem_cons_self, .refl⟩
    · obtain ⟨q, hq, hqd⟩ := ih₁ hd
      exact ⟨_, List.mem_cons_self, .of_parent hq hqd⟩
    · obtain ⟨q, hq, hqd⟩ := ih₂ hd
      exact ⟨q, List.mem_cons_of_mem _ hq, hqd⟩

/-- A tour from the parents of a class does not settle the class itself. -/
theorem Tour.not_mem_fresh (ht : h.Tour generator own n (h.parentsOf p) n' lists trace) :
    p ∉ ofKind .fresh trace := by
  intro hm
  obtain ⟨q, hq, hqp⟩ := ht.descends hm
  exact Nat.lt_irrefl _ (Nat.lt_of_lt_of_le (lt_of_mem_parentsOf hq) hqp.index_le)

/-- What is settled is noted with the pieces that it comes to. -/
theorem Tour.page_note_self (ht : h.Tour generator own (n.mark p) (h.parentsOf p) n₁ lists trace)
    (hp : n.page p = none) (pieces : List Piece) :
    (n₁.note p pieces).page p = some pieces := by
  have hnone : n₁.page p = none := by
    rw [← Option.not_isSome_iff_eq_none, ht.isSome_iff, Notes.page_mark, hp]
    simpa using ht.not_mem_fresh
  rw [Notes.page_note, hnone, if_pos rfl]
  rfl

/-- The first arrival at a class takes over all that is noted for it. -/
theorem Tour.page_of_not_visited (ht : h.Tour generator own n [p] n' [pieces] trace)
    (hp : p ∉ n.visited) : n'.page p = some pieces := by
  cases ht with
  | again _ hm _ => exact absurd hm hp
  | known hpage _ ht => exact ht.keeps (by rwa [Notes.page_mark])
  | fresh hpage habove ht => exact ht.keeps (habove.page_note_self hpage _)

/-- **Every parent edge of what is settled is gone over once**, and a tour arrives nowhere else but
at its first classes. -/
theorem Tour.perm_targets (ht : h.Tour generator own n roots n' lists trace) :
    (trace.map Arrival.id).Perm (roots ++ (ofKind .fresh trace).flatMap h.parentsOf) := by
  rw [List.perm_iff_count]
  intro e
  induction ht with
  | nil => rfl
  | again _ _ _ ih =>
    simp only [List.count_append] at ih
    simp [List.count_cons, ih]
  | known _ _ _ ih =>
    simp only [List.count_append] at ih
    simp [List.count_cons, ih]
  | fresh _ _ _ ih₁ ih₂ =>
    simp only [List.count_append] at ih₁ ih₂
    simp [List.count_cons, ih₁, ih₂]
    omega

/-- **No class is settled or known twice.** -/
theorem Tour.nodup (ht : h.Tour generator own n roots n' lists trace) :
    (ofKind .fresh trace ++ ofKind .known trace).Nodup := by
  have hapart : ∀ x ∈ ofKind .fresh trace, ∀ y ∈ ofKind .known trace, x ≠ y := by
    rintro x hx _ hy rfl
    have hs := (ht.noted_of_known hy).1
    rw [ht.page_eq_none hx] at hs
    cases hs
  suffices hboth : (ofKind .fresh trace).Nodup ∧ (ofKind .known trace).Nodup from
    List.nodup_append.2 ⟨hboth.1, hboth.2, hapart⟩
  clear hapart
  -- what the parents of a class settle or know is noted and visited when the tour goes on
  induction ht with
  | nil => exact ⟨List.nodup_nil, List.nodup_nil⟩
  | again _ _ _ ih => simpa using ih
  | @known n n' p roots pieces lists trace _ _ ht ih =>
    simp only [ofKind_cons, reduceCtorEq, if_false, if_true]
    refine ⟨ih.1, List.nodup_cons.2 ⟨fun hm => ?_, ih.2⟩⟩
    exact (ht.noted_of_known hm).2 (Notes.mem_visited_mark.2 (.inl rfl))
  | @fresh n n₁ n₂ p roots above lists trace₁ trace₂ hp ht₁ ht₂ ih₁ ih₂ =>
    simp only [ofKind_cons, ofKind_append, reduceCtorEq, if_false, if_true]
    have hnoted : ∀ x ∈ ofKind .fresh trace₂, ¬ ((n₁.page x).isSome ∨ x = p) := by
      intro x hx
      have hnone := ht₂.page_eq_none hx
      rwa [← Option.not_isSome_iff_eq_none, Notes.isSome_note] at hnone
    refine ⟨List.nodup_cons.2 ⟨?_, List.nodup_append.2 ⟨ih₁.1, ih₂.1, ?_⟩⟩,
      List.nodup_append.2 ⟨ih₁.2, ih₂.2, ?_⟩⟩
    · intro hm
      rcases List.mem_append.1 hm with hm | hm
      · exact ht₁.not_mem_fresh hm
      · exact hnoted p hm (.inr rfl)
    · rintro x hx _ hy rfl
      exact hnoted x hy (.inl (ht₁.isSome_iff.2 (.inr hx)))
    · rintro x hx _ hy rfl
      refine (ht₂.noted_of_known hy).2 ?_
      rw [Notes.visited_note]
      exact ht₁.mem_visited_iff.2 (.inr (.inr hx))

/-! ### How the pieces are arranged -/

/-- What is taken over from a class of which the pieces are on `page`: these, or the line for a
class that is arrived at again. -/
def Takes (h : Hierarchy σ α) (generator : String) (page : ClassId → List Piece) (p : ClassId)
    (pieces : List Piece) : Prop :=
  pieces = page p ∨ pieces = h.repeated generator p (page p)

theorem repeated_eq_nil_iff : h.repeated generator p pieces = [] ↔ pieces = [] := by
  unfold repeated
  split <;> simp_all

theorem Takes.eq_nil_iff {page : ClassId → List Piece} (ht : h.Takes generator page p pieces) :
    pieces = [] ↔ page p = [] := by
  rcases ht with rfl | rfl
  · exact Iff.rfl
  · exact repeated_eq_nil_iff

variable {page : ClassId → List Piece}

/-- From each class its pieces are taken over, or the line. -/
theorem Tour.takes (ht : h.Tour generator own n roots n' lists trace)
    (hn : Notes.On n' page) : List.Forall₂ (h.Takes generator page) roots lists := by
  induction ht with
  | nil => exact .nil
  | again hp _ ht ih =>
    refine .cons (.inr ?_) (ih hn)
    rw [hn _ _ (ht.keeps hp)]
  | known hp _ ht ih =>
    refine .cons (.inl ?_) (ih hn)
    exact (hn _ _ (ht.keeps (by rwa [Notes.page_mark]))).symm
  | fresh hp ht₁ ht₂ _ ih₂ =>
    refine .cons (.inl ?_) (ih₂ hn)
    exact (hn _ _ (ht₂.keeps (ht₁.page_note_self hp _))).symm

/-- What a tour notes at first is still on the page at its end. -/
theorem Tour.on_of_on (ht : h.Tour generator own n roots n' lists trace)
    (hn : Notes.On n' page) : Notes.On n page :=
  fun d pieces hd => hn d pieces (ht.keeps hd)

/-- **Each class that is settled has its own block first**, and then, under their heading, what is
taken over from its parents, the later ones first. -/
theorem Tour.arranged (ht : h.Tour generator own n roots n' lists trace) (hn : Notes.On n' page)
    (hd : d ∈ ofKind .fresh trace) :
    ∃ above, page d = h.composed generator d (own d) above ∧
      List.Forall₂ (h.Takes generator page) (h.parentsOf d) above := by
  induction ht with
  | nil => exact absurd hd List.not_mem_nil
  | again _ _ _ ih => exact ih hn (by simpa using hd)
  | known _ _ _ ih => exact ih hn (by simpa using hd)
  | fresh hp ht₁ ht₂ ih₁ ih₂ =>
    have hn₁ := (ht₂.on_of_on hn).of_note
    simp only [ofKind_cons, ofKind_append, if_true, List.mem_cons, List.mem_append] at hd
    rcases hd with rfl | hd | hd
    · exact ⟨_, hn _ _ (ht₂.keeps (ht₁.page_note_self hp _)), ht₁.takes hn₁⟩
    · exact ih₁ hn₁ hd
    · exact ih₂ hn hd

/-! ### What the pieces add up to -/

/-- The heading of the prerequisites of a class, if one of its parents fails. -/
def headings (h : Hierarchy σ α) (generator : String) (page : ClassId → List Piece) (d : ClassId) :
    List Piece :=
  if ∀ p ∈ h.parentsOf d, page p = [] then [] else [h.heading generator d]

theorem flatten_eq_nil_of_takes (ht : List.Forall₂ (h.Takes generator page) roots lists) :
    lists.flatten = [] ↔ ∀ p ∈ roots, page p = [] := by
  induction ht with
  | nil => simp
  | cons hp _ ih => rw [List.flatten_cons, List.append_eq_nil_iff, ih, hp.eq_nil_iff,
      List.forall_mem_cons]

/-- The pieces of a class are its own block, its heading, and what it takes over. -/
theorem perm_composed {above : List (List Piece)}
    (ht : List.Forall₂ (h.Takes generator page) (h.parentsOf d) above) (own : Verdict) :
    (h.composed generator d own above).Perm
      (h.ownPieces generator d own ++ h.headings generator page d ++ above.flatten) := by
  rw [composed, List.append_assoc]
  apply List.Perm.append_left
  have hflat : above.reverse.flatten.Perm above.flatten := above.reverse_perm.flatten
  -- there is a heading exactly if there is something below it
  unfold headings
  split
  · next hall =>
    have hnil := (flatten_eq_nil_of_takes ht).2 hall
    rw [hnil] at hflat ⊢
    rw [List.perm_nil.1 hflat]
    exact .refl _
  · next hsome =>
    have hne : above.reverse.flatten ≠ [] := by
      intro hnil
      rw [hnil] at hflat
      exact hsome ((flatten_eq_nil_of_takes ht).1 (List.nil_perm.1 hflat))
    rw [headed_of_ne_nil hne]
    exact hflat.cons _

/-- **The pieces of a tour**: the own blocks and the headings of the classes that are settled, once
each, the pieces of the classes that are known, and one line for each failed class that is arrived
at again. -/
theorem Tour.perm_pieces (ht : h.Tour generator own n roots n' lists trace)
    (hn : Notes.On n' page) :
    lists.flatten.Perm
      ((ofKind .fresh trace).flatMap (fun d => h.ownPieces generator d (own d)) ++
        (ofKind .fresh trace).flatMap (h.headings generator page) ++
        (ofKind .known trace).flatMap page ++
        (ofKind .again trace).flatMap (fun d => h.repeated generator d (page d))) := by
  -- the own pieces of a class move past all others, so occurrences are counted
  rw [List.perm_iff_count]
  intro x
  simp only [List.count_append]
  induction ht with
  | nil => rfl
  | again hp _ ht ih =>
    have hpage := hn _ _ (ht.keeps hp)
    simp [ih hn, hpage]
    omega
  | known hp _ ht ih =>
    have hpage := hn _ _ (ht.keeps (by rwa [Notes.page_mark]))
    simp [ih hn, hpage]
    omega
  | @fresh n n₁ n₂ p roots above lists trace₁ trace₂ hp ht₁ ht₂ ih₁ ih₂ =>
    have hn₁ := (ht₂.on_of_on hn).of_note
    have hcomposed := (perm_composed (ht₁.takes hn₁) (own p)).count_eq x
    simp only [List.count_append] at hcomposed
    simp [hcomposed, ih₁ hn₁, ih₂ hn]
    omega

end Hierarchy

/-- The outline of a request is a tour that arrives at the requested class. -/
theorem Registry.outline_tour [Inspectable α] (r : Registry σ α) (id : ClassId) (g : Generator σ α)
    (c : Config) (s : σ) (hid : id.index < r.hierarchy.size) (n : Notes) :
    r.hierarchy.Tour g.name (Event.ownVerdict g.id ((r.validate id g c).events s)) n [id]
      ((r.outline id g c s).final n) [(r.outline id g c s).value n]
      ((r.outline id g c s).events n) :=
  Hierarchy.outline_tour (id.index + 1) id n (Nat.lt_succ_self _) hid

end Lawbook
