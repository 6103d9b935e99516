/-
Lawbook/Proofs/Entries.lean

Entries: what a ledger says, against the list of all that was handed in to be recorded.

A ledger has two levels, a page for each generator and a line for each class, and a record looks
for its place on both.  Seen from outside there is one level only: pairs of a generator and a class,
each with the verdict that was entered for it first (`Keeps`).

The relation `Tracks` ties a ledger to the entries it was made from, and a record carries it from
one list to the list with one more entry (`Tracks.record`).  So it holds after any list of entries,
by induction from the right.  The number of lines is followed in the same way, without a look at the
order of the pages: a record adds one line if there was no verdict (`count_record`), and this is
when it adds one to the set of pairs.

Main result: `Ledger.recorded_keeps`.
-/
import Lawbook.Class.Ledger
import Mathlib.Data.Finset.Card
import Mathlib.Data.List.Induction

namespace Lawbook

namespace Ledger

variable {l : Ledger} {g : GeneratorId} {id : ClassId}

/-! ### Entries -/

/-- What is handed in to be recorded: the verdict on a class for a generator. -/
structure Entry where
  generator : GeneratorId
  id : ClassId
  verdict : Verdict

/-- The pair that an entry is about. -/
def Entry.pair (e : Entry) : GeneratorId × ClassId :=
  (e.generator, e.id)

/-- The ledger in which entries were recorded, one after the other from an empty one on. -/
def recorded (entries : List Entry) : Ledger :=
  entries.foldl (fun l e => l.record e.generator e.id e.verdict) empty

/-- The verdict that was entered first for a pair. -/
def first? (entries : List Entry) (pair : GeneratorId × ClassId) : Option Verdict :=
  (entries.find? fun e => e.pair = pair).map Entry.verdict

variable {entries : List Entry} {e : Entry} {pair : GeneratorId × ClassId} {verdict : Verdict}

/-- The last record is made last. -/
theorem recorded_append_singleton (entries : List Entry) (e : Entry) :
    recorded (entries ++ [e]) = (recorded entries).record e.generator e.id e.verdict := by
  rw [recorded, List.foldl_append]
  rfl

/-- One record more counts for its pair only if the pair had none. -/
theorem first?_append_singleton (entries : List Entry) (e : Entry)
    (pair : GeneratorId × ClassId) : first? (entries ++ [e]) pair =
      (first? entries pair).or (if e.pair = pair then some e.verdict else none) := by
  rw [first?, List.find?_append, Option.map_or, List.find?_singleton]
  by_cases he : e.pair = pair <;> simp [first?, he]

/-- A pair has no first record exactly if it is not among the records. -/
theorem first?_eq_none_iff : first? entries pair = none ↔ pair ∉ entries.map Entry.pair := by
  simp [first?, List.find?_eq_none]

theorem isSome_first?_iff : (first? entries pair).isSome ↔ pair ∈ entries.map Entry.pair := by
  rw [← Option.ne_none_iff_isSome, Ne, first?_eq_none_iff, not_not]

/-- The first entry for a pair has no other one for it in front. -/
theorem first?_eq_some_iff : first? entries (g, id) = some verdict ↔
    ∃ before after, entries = before ++ ⟨g, id, verdict⟩ :: after ∧
      (g, id) ∉ before.map Entry.pair := by
  rw [first?, Option.map_eq_some_iff]
  constructor
  · rintro ⟨⟨k, d, v⟩, hfind, rfl⟩
    obtain ⟨hpair, before, after, rfl, hbefore⟩ := List.find?_eq_some_iff_append.1 hfind
    obtain ⟨rfl, rfl⟩ := Prod.mk.inj (of_decide_eq_true hpair)
    exact ⟨before, after, rfl, by simpa using hbefore⟩
  · rintro ⟨before, after, rfl, hbefore⟩
    refine ⟨_, List.find?_eq_some_iff_append.2 ⟨decide_eq_true rfl, before, after, rfl, ?_⟩, rfl⟩
    simpa using hbefore

/-! ### One record -/

/-- A ledger has the first verdict for each pair among entries, as many lines as there are pairs,
and its pages in order. -/
structure Tracks (l : Ledger) (entries : List Entry) : Prop where
  verdict?_eq : ∀ g id, l.verdict? g id = first? entries (g, id)
  count_eq : l.count = (entries.map Entry.pair).toFinset.card
  ascending : l.Ascending

theorem tracks_empty : empty.Tracks [] where
  verdict?_eq := fun _ _ => rfl
  count_eq := rfl
  ascending := ascending_empty

/-- **One record**: what a ledger tracks grows by the entry that is recorded. -/
theorem Tracks.record (ht : l.Tracks entries) (e : Entry) :
    (l.record e.generator e.id e.verdict).Tracks (entries ++ [e]) where
  verdict?_eq := by
    intro g id
    have hpair : e.pair = (g, id) ↔ e.generator = g ∧ e.id = id := Prod.mk_inj
    rw [verdict?_record, first?_append_singleton, ht.verdict?_eq]
    simp only [hpair]
  count_eq := by
    -- the ledger knows a pair exactly if it is that of an entry, so both numbers grow together
    have hknown : (l.verdict? e.generator e.id).isSome ↔ e.pair ∈ entries.map Entry.pair := by
      rw [ht.verdict?_eq]
      exact isSome_first?_iff
    have hpairs : ((entries ++ [e]).map Entry.pair).toFinset =
        insert e.pair (entries.map Entry.pair).toFinset := by
      ext pair
      simp
    rw [count_record, ht.count_eq, hpairs, Finset.card_insert_eq_ite]
    by_cases hm : e.pair ∈ entries.map Entry.pair
    · rw [if_pos (hknown.2 hm), if_pos (List.mem_toFinset.2 hm), Nat.add_zero]
    · rw [if_neg fun hs => hm (hknown.1 hs), if_neg fun hs => hm (List.mem_toFinset.1 hs)]
  ascending := ht.ascending.record e.generator e.id e.verdict

/-- **The ledger is what the list of records says**, by induction from the end: each record is one
step. -/
theorem recorded_tracks (entries : List Entry) : (recorded entries).Tracks entries := by
  induction entries using List.reverseRecOn with
  | nil => exact tracks_empty
  | append_singleton entries e ih =>
    rw [recorded_append_singleton]
    exact ih.record e

/-! ### All records -/

/-- A ledger is the map on pairs in which the first entry for a pair stays: it has the verdict of
the first entry for each pair and no other ones, it counts the pairs, and for each generator it
lists the classes of its pairs in ascending order. -/
structure Keeps (l : Ledger) (entries : List Entry) : Prop where
  some_iff : ∀ g id verdict, l.verdict? g id = some verdict ↔
    ∃ before after, entries = before ++ ⟨g, id, verdict⟩ :: after ∧
      (g, id) ∉ before.map Entry.pair
  none_iff : ∀ g id, l.verdict? g id = none ↔ (g, id) ∉ entries.map Entry.pair
  contains_eq : ∀ g id, l.contains g id = (l.verdict? g id).isSome
  count_eq : l.count = (entries.map Entry.pair).toFinset.card
  isEmpty_iff : l.isEmpty ↔ entries = []
  ascending : ∀ g, (l.classesFor g).Pairwise fun c d => c.index < d.index
  listed_iff : ∀ g id, id ∈ l.classesFor g ↔ (g, id) ∈ entries.map Entry.pair

/-- **A ledger keeps what is entered first**, whatever is recorded and in whatever order. -/
theorem recorded_keeps (entries : List Entry) : (recorded entries).Keeps entries := by
  have ht := recorded_tracks entries
  refine { contains_eq := fun _ _ => rfl, count_eq := ht.count_eq, some_iff := ?_, none_iff := ?_,
           isEmpty_iff := ?_, ascending := ?_, listed_iff := ?_ }
  · intro g id verdict
    rw [ht.verdict?_eq, first?_eq_some_iff]
  · intro g id
    rw [ht.verdict?_eq, first?_eq_none_iff]
  · rw [isEmpty, beq_iff_eq, ht.count_eq, Finset.card_eq_zero, List.toFinset_eq_empty_iff,
      List.map_eq_nil_iff]
  · intro g
    exact List.pairwise_map.2 (ht.ascending g)
  · intro g id
    rw [mem_classesFor_iff, ht.verdict?_eq, isSome_first?_iff]

/-- A second record for a pair changes nothing, and classes are listed in their order. -/
example : let l := (empty.record ⟨1⟩ ⟨2⟩ (.fail "broken")).record ⟨1⟩ ⟨0⟩ .success
    l.record ⟨1⟩ ⟨2⟩ .success = l ∧ l.classesFor ⟨1⟩ = [⟨0⟩, ⟨2⟩] := by
  decide

end Ledger

end Lawbook
