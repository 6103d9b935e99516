/-
Lawbook/Class/Ledger.lean

The ledger of verdicts: which classes were validated against which generator, and with what
outcome.

There is a page for each generator, with one line for each class in the order of the classes.
Lines are never changed or struck out: the first verdict for a generator and a class stays.

* `verdict?_record` : after a record, a pair has the verdict it had before if there was one, and
  otherwise the new verdict if the pair is the recorded one;
* `verdict?_record_of_some`, `verdict?_record_eq_some` : the same, read in the two directions;
* `classesFor` lists the lines of a page, and these are the classes with a verdict
  (`mem_classesFor_iff`);
* `count` is the number of lines in all, `count_record` : it grows where there was no verdict.
-/
import Lawbook.Identity
import Lawbook.Inspect
import Lawbook.Text.Quoted
import Lawbook.Verdict

namespace Lawbook

/-! ### Pages -/

/-- The verdicts on one generator, by ascending class. -/
abbrev Page : Type := List (ClassId × Verdict)

namespace Page

/-- The verdict on a class. -/
def verdict? (page : Page) (id : ClassId) : Option Verdict :=
  match page with
  | [] => none
  | (other, verdict) :: rest => if other = id then some verdict else Page.verdict? rest id

/-- Puts a line in front of the first one of a later class. -/
def insert (id : ClassId) (verdict : Verdict) : Page → Page
  | [] => [(id, verdict)]
  | line :: rest =>
    if id.index < line.1.index then (id, verdict) :: line :: rest
    else line :: insert id verdict rest

/-- Writes a verdict down, unless there is one already. -/
def write (id : ClassId) (verdict : Verdict) (page : Page) : Page :=
  if (page.verdict? id).isSome then page else page.insert id verdict

/-! ### What a page says -/

/-- Where a class has no line, a line for it is what is found for it, wherever on the page the line
is put. -/
theorem verdict?_insert {page : Page} {id : ClassId} (h : page.verdict? id = none)
    (other : ClassId) (verdict : Verdict) :
    (page.insert id verdict).verdict? other =
      if id = other then some verdict else page.verdict? other := by
  induction page with
  | nil => simp [insert, verdict?]
  | cons line rest ih =>
    have hl : ¬ line.1 = id := fun e => by simp [verdict?, e] at h
    rw [verdict?, if_neg hl] at h
    rw [insert]
    split
    · simp [verdict?]
    · by_cases ho : line.1 = other
      · have : ¬ id = other := fun e => hl (ho.trans e.symm)
        simp [verdict?, ho, this]
      · simpa [verdict?, ho] using ih h

/-- The first verdict that is written wins, and a verdict on one class changes none on another. -/
theorem verdict?_write (page : Page) (id other : ClassId) (verdict : Verdict) :
    (page.write id verdict).verdict? other =
      (page.verdict? other).or (if id = other then some verdict else none) := by
  rw [write]
  cases h : page.verdict? id with
  | some old =>
    by_cases ho : id = other
    · simp [← ho, h]
    · simp [ho]
  | none =>
    rw [if_neg (by simp), verdict?_insert h]
    by_cases ho : id = other
    · simp [← ho, h]
    · simp [ho]

/-- A page grows by one line, wherever the line is put. -/
theorem length_insert (id : ClassId) (verdict : Verdict) (page : Page) :
    (page.insert id verdict).length = page.length + 1 := by
  induction page with
  | nil => rfl
  | cons line rest ih =>
    rw [insert]
    split
    · rfl
    · rw [List.length_cons, ih, List.length_cons]

/-- A page grows by one line, unless the class has one. -/
theorem length_write (id : ClassId) (verdict : Verdict) (page : Page) :
    (page.write id verdict).length =
      page.length + if (page.verdict? id).isSome then 0 else 1 := by
  rw [write]
  split
  · rfl
  · exact length_insert id verdict page

/-- The classes on a page are those that have a verdict there. -/
theorem mem_map_fst_iff {page : Page} {id : ClassId} :
    id ∈ page.map Prod.fst ↔ (page.verdict? id).isSome := by
  induction page with
  | nil => simp [verdict?]
  | cons line rest ih =>
    rw [List.map_cons, List.mem_cons, verdict?]
    split
    · next he => simp [he]
    · next hne => rw [ih, or_iff_right (Ne.symm hne)]

/-! ### The order of a page -/

/-- The lines of a page are in ascending order of their classes. -/
def Ascending (page : Page) : Prop :=
  page.Pairwise fun a b => a.1.index < b.1.index

theorem ne_of_verdict?_eq_none {page : Page} {id : ClassId} (h : page.verdict? id = none) :
    ∀ line ∈ page, line.1 ≠ id := by
  induction page with
  | nil => simp
  | cons line rest ih =>
    have hl : ¬ line.1 = id := fun e => by simp [verdict?, e] at h
    rw [verdict?, if_neg hl] at h
    intro l hm
    rcases List.mem_cons.1 hm with rfl | hm
    · exact hl
    · exact ih h l hm

/-- The lines of a page are still there after one is put between them. -/
theorem mem_insert {page : Page} {id : ClassId} {verdict : Verdict} {line : ClassId × Verdict} :
    line ∈ page.insert id verdict ↔ line = (id, verdict) ∨ line ∈ page := by
  induction page with
  | nil => simp [insert]
  | cons l rest ih =>
    rw [insert]
    split
    · simp
    · simp [ih, or_left_comm]

/-- A line is put where its class belongs, so the page stays in order. -/
theorem Ascending.insert {page : Page} (h : page.Ascending) {id : ClassId}
    (hn : ∀ line ∈ page, line.1 ≠ id) (verdict : Verdict) :
    (page.insert id verdict).Ascending := by
  induction page with
  | nil => simp [Page.insert, Ascending]
  | cons l rest ih =>
    have hl := List.pairwise_cons.1 h
    rw [Page.insert]
    split
    · next hlt =>
      refine List.pairwise_cons.2 ⟨fun m hm => ?_, h⟩
      rcases List.mem_cons.1 hm with rfl | hm
      · exact hlt
      · exact Nat.lt_trans hlt (hl.1 m hm)
    · next hge =>
      refine List.pairwise_cons.2
        ⟨fun m hm => ?_, ih hl.2 fun m hm => hn m (List.mem_cons_of_mem _ hm)⟩
      rcases mem_insert.1 hm with rfl | hm
      · have : l.1.index ≠ id.index := fun e => hn l List.mem_cons_self (ClassId.ext e)
        exact Nat.lt_of_le_of_ne (Nat.le_of_not_lt hge) this
      · exact hl.1 m hm

/-- A page that is in order stays so, whether the verdict is written or was there before. -/
theorem Ascending.write {page : Page} (h : page.Ascending) (id : ClassId) (verdict : Verdict) :
    (page.write id verdict).Ascending := by
  rw [Page.write]
  cases hv : page.verdict? id with
  | some old => exact h
  | none => exact h.insert (ne_of_verdict?_eq_none hv) verdict

end Page

/-! ### Ledgers -/

/-- The pages of all generators, each generator's once. -/
structure Ledger where
  pages : List (GeneratorId × Page)
deriving DecidableEq, Repr

namespace Ledger

/-- The ledger in which nothing is written. -/
def empty : Ledger := ⟨[]⟩

instance : Inhabited Ledger := ⟨empty⟩

/-- The page of a generator among pages. -/
def pageIn (pages : List (GeneratorId × Page)) (g : GeneratorId) : Page :=
  match pages with
  | [] => []
  | (other, page) :: rest => if other = g then page else pageIn rest g

/-- The page of a generator. -/
def pageOf (l : Ledger) (g : GeneratorId) : Page :=
  pageIn l.pages g

/-- The verdict on a class for a generator. -/
def verdict? (l : Ledger) (g : GeneratorId) (id : ClassId) : Option Verdict :=
  (l.pageOf g).verdict? id

/-- Whether there is a verdict. -/
def contains (l : Ledger) (g : GeneratorId) (id : ClassId) : Bool :=
  (l.verdict? g id).isSome

/-- Writes a verdict on the page of a generator among pages. -/
def writeIn (g : GeneratorId) (id : ClassId) (verdict : Verdict) :
    List (GeneratorId × Page) → List (GeneratorId × Page)
  | [] => [(g, Page.write id verdict [])]
  | (other, page) :: rest =>
    if other = g then (other, page.write id verdict) :: rest
    else (other, page) :: writeIn g id verdict rest

/-- Records a verdict.  The first one for a generator and a class stays. -/
def record (l : Ledger) (g : GeneratorId) (id : ClassId) (verdict : Verdict) : Ledger :=
  ⟨writeIn g id verdict l.pages⟩

/-- The classes with a verdict for a generator, in ascending order. -/
def classesFor (l : Ledger) (g : GeneratorId) : List ClassId :=
  (l.pageOf g).map Prod.fst

/-- The number of recorded verdicts. -/
def count (l : Ledger) : Nat :=
  (l.pages.flatMap Prod.snd).length

/-- Whether nothing is recorded. -/
def isEmpty (l : Ledger) : Bool :=
  l.count == 0

/-- Every page is in ascending order. -/
def Ascending (l : Ledger) : Prop :=
  ∀ g, (l.pageOf g).Ascending

/-- A verdict is written on the page of its generator, and the other pages stay as they are. -/
theorem pageIn_writeIn (pages : List (GeneratorId × Page)) (g k : GeneratorId) (id : ClassId)
    (verdict : Verdict) :
    pageIn (writeIn g id verdict pages) k =
      if g = k then (pageIn pages k).write id verdict else pageIn pages k := by
  induction pages with
  | nil => by_cases h : g = k <;> simp [writeIn, pageIn, h]
  | cons entry rest ih =>
    obtain ⟨other, page⟩ := entry
    rw [writeIn]
    by_cases ho : other = g
    · subst ho
      rw [if_pos rfl]
      by_cases hk : other = k <;> simp [pageIn, hk]
    · by_cases hk : other = k
      · have : ¬ g = k := fun e => ho (hk.trans e.symm)
        rw [if_neg ho, if_neg this]
        simp [pageIn, hk]
      · rw [if_neg ho]
        simpa [pageIn, hk] using ih

/-- A record changes the page of its generator, and no other. -/
theorem pageOf_record (l : Ledger) (g k : GeneratorId) (id : ClassId) (verdict : Verdict) :
    (l.record g id verdict).pageOf k =
      if g = k then (l.pageOf k).write id verdict else l.pageOf k :=
  pageIn_writeIn l.pages g k id verdict

theorem ascending_empty : empty.Ascending :=
  fun _ => List.Pairwise.nil

/-- All pages stay in order. -/
theorem Ascending.record {l : Ledger} (h : l.Ascending) (g : GeneratorId) (id : ClassId)
    (verdict : Verdict) : (l.record g id verdict).Ascending := by
  intro k
  rw [pageOf_record]
  split
  · exact (h k).write id verdict
  · exact h k

/-- The first record for a pair wins, and records for other pairs are left alone. -/
theorem verdict?_record (l : Ledger) (g k : GeneratorId) (id other : ClassId)
    (verdict : Verdict) :
    (l.record g id verdict).verdict? k other =
      (l.verdict? k other).or (if g = k ∧ id = other then some verdict else none) := by
  unfold verdict?
  rw [pageOf_record]
  by_cases hg : g = k
  · simp [hg, Page.verdict?_write]
  · simp [hg]

/-- A record does not disturb those before it. -/
theorem verdict?_record_of_some {l : Ledger} {k : GeneratorId} {other : ClassId} {old : Verdict}
    (h : l.verdict? k other = some old) (g : GeneratorId) (id : ClassId) (verdict : Verdict) :
    (l.record g id verdict).verdict? k other = some old := by
  rw [verdict?_record, h]
  rfl

/-- The first record for a generator and a class is written down. -/
theorem verdict?_record_self {l : Ledger} {g : GeneratorId} {id : ClassId}
    (h : l.verdict? g id = none) (verdict : Verdict) :
    (l.record g id verdict).verdict? g id = some verdict := by
  rw [verdict?_record, h, if_pos ⟨rfl, rfl⟩]
  rfl

/-- A pair without a record had none before, and the last record was not for it. -/
theorem verdict?_record_eq_none {l : Ledger} {g k : GeneratorId} {id other : ClassId}
    {verdict : Verdict} (h : (l.record g id verdict).verdict? k other = none) :
    l.verdict? k other = none ∧ ¬ (g = k ∧ id = other) := by
  rw [verdict?_record, Option.or_eq_none_iff] at h
  refine ⟨h.1, fun he => ?_⟩
  rw [if_pos he] at h
  cases h.2

/-- What is read off a ledger after a record was read off it before, or it is that record. -/
theorem verdict?_record_eq_some {l : Ledger} {g k : GeneratorId} {id other : ClassId}
    {verdict found : Verdict} (h : (l.record g id verdict).verdict? k other = some found) :
    l.verdict? k other = some found ∨
      (l.verdict? k other = none ∧ g = k ∧ id = other ∧ verdict = found) := by
  cases hl : l.verdict? k other with
  | some old =>
    rw [verdict?_record_of_some hl] at h
    exact .inl h
  | none =>
    rw [verdict?_record, hl, Option.none_or] at h
    split at h
    · next he => exact .inr ⟨rfl, he.1, he.2, Option.some_inj.1 h⟩
    · cases h

/-- The listed classes of a generator are those with a record. -/
theorem mem_classesFor_iff {l : Ledger} {g : GeneratorId} {id : ClassId} :
    id ∈ l.classesFor g ↔ (l.verdict? g id).isSome :=
  Page.mem_map_fst_iff

/-- The number of lines on all pages grows by one, unless the pair had a verdict. -/
theorem length_flatMap_writeIn (g : GeneratorId) (id : ClassId) (verdict : Verdict)
    (pages : List (GeneratorId × Page)) :
    ((writeIn g id verdict pages).flatMap Prod.snd).length =
      (pages.flatMap Prod.snd).length +
        if ((pageIn pages g).verdict? id).isSome then 0 else 1 := by
  induction pages with
  | nil => rfl
  | cons entry rest ih =>
    obtain ⟨other, page⟩ := entry
    rw [writeIn, pageIn]
    split
    · rw [List.flatMap_cons, List.flatMap_cons, List.length_append, List.length_append,
        Page.length_write, Nat.add_right_comm]
    · rw [List.flatMap_cons, List.flatMap_cons, List.length_append, List.length_append, ih,
        Nat.add_assoc]

/-- A ledger grows by one line, unless the pair has a verdict. -/
theorem count_record (l : Ledger) (g : GeneratorId) (id : ClassId) (verdict : Verdict) :
    (l.record g id verdict).count = l.count + if (l.verdict? g id).isSome then 0 else 1 :=
  length_flatMap_writeIn g id verdict l.pages

end Ledger

/-! ### Inspection -/

/-- A verdict under inspection. -/
def Verdict.inspect : Verdict → String
  | success => "Success"
  | failure report => Inspect.tuple "Failure" [Text.quoted report]

/-- A ledger under inspection, where `label` writes the identifiers of generators. -/
def Ledger.inspect (label : GeneratorId → String) (l : Ledger) : String :=
  let pageText (page : Page) : String :=
    Inspect.map (page.map fun line => (line.1.inspect, line.2.inspect))
  Inspect.record "ValidationCache"
    [("outcomes", Inspect.map (l.pages.map fun entry =>
      (entry.1.inspect label, pageText entry.2)))]

end Lawbook
