/-
Lawbook/Proofs/Paths.lean

Paths: what is found where in a document that is laid over another one.

A path is a list of keys, and the value behind it is found key by key (`behind?`).  One rule says
what an overlay does at a path that leads somewhere in the upper document: what is found there is
the value of the upper document, laid over the value that the lower one has there, or over nothing
(`behind?_overlay_of_some`).  It is proved by induction on the path, with both documents general,
since the lower document may end before the upper one does.

The rest follows from it.  Where the upper document has a value that is no object, this value is
found, and where it has an object, an object is found.  A path that leads out of the upper document
does so at the last point that it reaches there; whether the lower document counts is decided at
this point (`LaidOver.of_none`).

An object of the library is a list of entries, so that a key could stand in it twice.  In a document
that was read it does not (`Tidy`), and this is what the rule needs of the upper document.

Main result: `overlay_right_biased`.
-/
import Lawbook.Document

namespace Lawbook

namespace Document

variable {a b d v : Document} {key : String} {p q : List String}
  {entries under : List (String × Document)}

/-! ### Values behind paths -/

/-- Whether a document is an object. -/
def isObject : Document → Bool
  | object _ => true
  | _ => false

/-- The value behind a path of keys. -/
def behind? : List String → Document → Option Document
  | [], d => some d
  | key :: path, d => (d.get? key).bind (behind? path)

/-- There is an object behind a path. -/
def HasObject (d : Document) (p : List String) : Prop :=
  ∃ v, d.behind? p = some v ∧ v.isObject = true

theorem behind?_cons (key : String) (p : List String) (d : Document) :
    d.behind? (key :: p) = (d.get? key).bind (behind? p) := rfl

theorem behind?_append (p q : List String) (d : Document) :
    d.behind? (p ++ q) = (d.behind? p).bind (behind? q) := by
  induction p generalizing d with
  | nil => rfl
  | cons key p ih =>
    rw [List.cons_append, behind?_cons, behind?_cons]
    cases d.get? key with
    | none => rfl
    | some v => exact ih v

theorem exists_entries_of_isObject (hd : d.isObject = true) : ∃ entries, d = object entries := by
  cases d with
  | object entries => exact ⟨entries, rfl⟩
  | _ => cases hd

theorem get?_of_not_object (hd : d.isObject = false) (key : String) : d.get? key = none := by
  cases d with
  | object entries => cases hd
  | _ => rfl

/-! ### Where a path leaves a document -/

/-- The longest part of a path, from its start, that leads somewhere in a document. -/
structure LeavesAt (d : Document) (p q : List String) : Prop where
  isPrefix : q <+: p
  isSome : (d.behind? q).isSome = true
  longest : ∀ r, r <+: p → (d.behind? r).isSome = true → r.length ≤ q.length

/-- A path that leads nowhere has a first key that is not there. -/
theorem exists_missing_key (hp : d.behind? p = none) :
    ∃ q key rest v, p = q ++ key :: rest ∧ d.behind? q = some v ∧ v.get? key = none := by
  induction p generalizing d with
  | nil => cases hp
  | cons key p ih =>
    cases hv : d.get? key with
    | none => exact ⟨[], key, p, d, rfl, rfl, hv⟩
    | some v =>
      rw [behind?_cons, hv] at hp
      obtain ⟨q, key', rest, w, rfl, hw, hnone⟩ := ih hp
      refine ⟨key :: q, key', rest, w, rfl, ?_, hnone⟩
      rw [behind?_cons, hv]
      exact hw

/-- The path leaves the document in front of the first key that is not there. -/
theorem leavesAt_of_missing_key (rest : List String) (hv : d.behind? q = some v)
    (hkey : v.get? key = none) : d.LeavesAt (q ++ key :: rest) q where
  isPrefix := List.prefix_append _ _
  isSome := by rw [hv]; rfl
  longest := by
    intro r hr hsome
    apply Nat.le_of_not_lt
    intro hlt
    -- a longer part would lead past the missing key
    have hstart : q ++ [key] <+: q ++ key :: rest := ⟨rest, by simp⟩
    have hlong : q ++ [key] <+: r := by
      apply List.prefix_of_prefix_length_le hstart hr
      simp only [List.length_append, List.length_singleton]
      omega
    obtain ⟨more, rfl⟩ := hlong
    simp [behind?_append, behind?_cons, hv, hkey] at hsome

/-! ### Objects with each key once -/

/-- Each key of an object stands there once, also in the objects behind its keys.  Lists are taken
as a whole, whatever is in them. -/
inductive Tidy : Document → Prop
  | object {entries : List (String × Document)} : (entries.map Prod.fst).Nodup →
      (∀ entry ∈ entries, Tidy entry.2) → Tidy (.object entries)
  | whole {d : Document} : d.isObject = false → Tidy d

theorem mem_of_lookup (h : lookup key entries = some v) : (key, v) ∈ entries := by
  induction entries with
  | nil => cases h
  | cons entry rest ih =>
    obtain ⟨other, w⟩ := entry
    rw [lookup] at h
    split at h
    · next heq =>
      subst heq
      obtain rfl := Option.some.inj h
      exact List.mem_cons_self
    · exact List.mem_cons_of_mem _ (ih h)

theorem lookup_eq_none_iff : lookup key entries = none ↔ key ∉ entries.map Prod.fst := by
  induction entries with
  | nil => simp [lookup]
  | cons entry rest ih =>
    obtain ⟨other, w⟩ := entry
    by_cases h : other = key
    · simp [lookup, h]
    · rw [lookup, if_neg h, ih, List.map_cons, List.mem_cons, not_or]
      exact (and_iff_right (Ne.symm h)).symm

/-- In entries with each key once, every entry is found. -/
theorem lookup_of_mem (hn : (entries.map Prod.fst).Nodup) (h : (key, v) ∈ entries) :
    lookup key entries = some v := by
  induction entries with
  | nil => cases h
  | cons entry rest ih =>
    obtain ⟨other, w⟩ := entry
    obtain ⟨hother, hrest⟩ := List.nodup_cons.1 hn
    rcases List.mem_cons.1 h with heq | hmem
    · obtain ⟨rfl, rfl⟩ := Prod.mk.inj heq
      simp [lookup]
    · have hne : other ≠ key := by
        rintro rfl
        exact hother (List.mem_map.2 ⟨_, hmem, rfl⟩)
      rw [lookup, if_neg hne]
      exact ih hrest hmem

/-- To assign what is there already changes nothing. -/
theorem assign_of_lookup (h : lookup key entries = some v) : assign key v entries = entries := by
  induction entries with
  | nil => cases h
  | cons entry rest ih =>
    obtain ⟨other, w⟩ := entry
    rw [lookup] at h
    rw [assign]
    split at h
    · next heq => rw [if_pos heq, Option.some.inj h]
    · next hne => rw [if_neg hne, ih h]

theorem Tidy.get? (hd : d.Tidy) (h : d.get? key = some v) : v.Tidy := by
  cases hd with
  | object _ hentries => exact hentries _ (mem_of_lookup h)
  | whole hd =>
    rw [get?_of_not_object hd] at h
    cases h

/-! ### One key of an overlay -/

/-- Where one of two documents is no object, the upper one is all there is. -/
theorem overlay_of_not_object (h : a.isObject = false ∨ b.isObject = false) : a.overlay b = b := by
  cases b with
  | object entries =>
    cases a with
    | object under => rcases h with h | h <;> cases h
    | _ => rfl
  | _ => rfl

/-- Documents that are not both objects do not join. -/
theorem overlay_eq_or_exists (a b : Document) : a.overlay b = b ∨
    ∃ under entries, a = object under ∧ b = object entries := by
  cases ha : a.isObject with
  | false => exact .inl (overlay_of_not_object (.inl ha))
  | true =>
    cases hb : b.isObject with
    | false => exact .inl (overlay_of_not_object (.inr hb))
    | true =>
      obtain ⟨under, rfl⟩ := exists_entries_of_isObject ha
      obtain ⟨entries, rfl⟩ := exists_entries_of_isObject hb
      exact .inr ⟨under, entries, rfl, rfl⟩

theorem isObject_overlay (a b : Document) : (a.overlay b).isObject = b.isObject := by
  cases b with
  | object entries => cases a <;> rfl
  | _ => rfl

/-- Entries with each key once, laid over others: each of their values is laid over the one that is
below it, and the values at other keys are those below. -/
theorem lookup_overlayEntries (hn : (entries.map Prod.fst).Nodup)
    (under : List (String × Document)) (key : String) :
    lookup key (overlayEntries under entries) =
      ((lookup key entries).map (((lookup key under).getD null).overlay ·)).or
        (lookup key under) := by
  induction entries generalizing under with
  | nil => rfl
  | cons entry rest ih =>
    obtain ⟨other, w⟩ := entry
    obtain ⟨hother, hrest⟩ := List.nodup_cons.1 hn
    rw [overlayEntries, ih hrest, lookup_assign, lookup]
    by_cases h : other = key
    · -- the entry is the only one at its key, so nothing comes on top of it
      subst h
      rw [lookup_eq_none_iff.2 hother]
      simp
    · rw [if_neg h, if_neg h]

variable (hb : b.Tidy)
include hb

/-- **What is behind a key of the upper document** is laid over what is behind it below. -/
theorem get?_overlay_of_some (a : Document) (hv : b.get? key = some v) :
    (a.overlay b).get? key = some (((a.get? key).getD null).overlay v) := by
  cases ha : a.isObject with
  | false =>
    rw [overlay_of_not_object (.inl ha), hv, get?_of_not_object ha]
    rw [Option.getD_none, overlay_of_not_object (.inl rfl)]
  | true =>
    cases hb with
    | whole hb =>
      rw [get?_of_not_object hb] at hv
      cases hv
    | @object entries hn _ =>
      obtain ⟨under, rfl⟩ := exists_entries_of_isObject ha
      have hlookup : lookup key entries = some v := hv
      show lookup key (overlayEntries under entries) = _
      rw [lookup_overlayEntries hn, hlookup]
      rfl

/-- What is not behind a key of the upper document is what is below, if both are objects. -/
theorem get?_overlay_of_none (hkey : b.get? key = none) :
    (a.overlay b).get? key = if a.isObject ∧ b.isObject then a.get? key else none := by
  cases ha : a.isObject with
  | false => rw [overlay_of_not_object (.inl ha), hkey, if_neg (by simp)]
  | true =>
    cases hb with
    | whole hb => rw [overlay_of_not_object (.inr hb), hkey, hb, if_neg (by simp)]
    | @object entries hn _ =>
      obtain ⟨under, rfl⟩ := exists_entries_of_isObject ha
      have hlookup : lookup key entries = none := hkey
      show lookup key (overlayEntries under entries) = _
      rw [lookup_overlayEntries hn, hlookup]
      rfl

/-! ### Paths of an overlay -/

/-- **What an overlay does at a path that leads somewhere in the upper document.** -/
theorem behind?_overlay_of_some (a : Document) (hv : b.behind? q = some v) :
    (a.overlay b).behind? q = some (((a.behind? q).getD null).overlay v) := by
  induction q generalizing a b with
  | nil =>
    obtain rfl := Option.some.inj hv
    rfl
  | cons key q ih =>
    cases hw : b.get? key with
    | none =>
      rw [behind?_cons, hw] at hv
      cases hv
    | some w =>
      rw [behind?_cons, hw] at hv
      rw [behind?_cons, get?_overlay_of_some hb a hw, Option.bind_some, ih (hb.get? hw) _ hv,
        behind?_cons]
      cases a.get? key with
      | some u => rfl
      | none =>
        -- below there is nothing, at the key and behind it
        cases q <;> rfl

theorem Tidy.behind? (hv : b.behind? q = some v) : v.Tidy := by
  induction q generalizing b with
  | nil =>
    obtain rfl := Option.some.inj hv
    exact hb
  | cons key q ih =>
    rw [behind?_cons, Option.bind_eq_some_iff] at hv
    obtain ⟨w, hw, hv⟩ := hv
    exact ih (hb.get? hw) hv

omit hb in
theorem isObject_getD_behind?_iff : ((a.behind? q).getD null).isObject = true ↔ a.HasObject q := by
  unfold HasObject
  cases a.behind? q with
  | none => simp [isObject]
  | some v => simp

/-- What an overlay does at a path that leaves the upper document at a key. -/
theorem behind?_overlay_of_missing_key (a : Document) (rest : List String)
    (hv : b.behind? q = some v) (hkey : v.get? key = none) :
    (a.overlay b).behind? (q ++ key :: rest) =
      if ((a.behind? q).getD null).isObject ∧ v.isObject then a.behind? (q ++ key :: rest)
      else none := by
  rw [behind?_append, behind?_overlay_of_some hb a hv, Option.bind_some, behind?_cons,
    get?_overlay_of_none (hb.behind? hv) hkey, behind?_append]
  split
  · next hobject =>
    cases hu : a.behind? q with
    | some u => rfl
    | none =>
      rw [hu] at hobject
      cases hobject.1
  · rfl

/-! ### Overlays as a whole -/

/-- What is found where in `m`, if it is `b` laid over `a`. -/
structure LaidOver (a b m : Document) : Prop where
  /-- A value of the upper document that is no object is what is found. -/
  of_value : ∀ p v, b.behind? p = some v → v.isObject = false → m.behind? p = some v
  /-- Where the upper document has an object, an object is found. -/
  of_object : ∀ p, b.HasObject p → m.HasObject p
  /-- Where it has nothing, the lower document is what counts, if both of them have an object at the
  point where the path leaves the upper one, and else nothing is found. -/
  of_none : ∀ p, b.behind? p = none → ∃ q, b.LeavesAt p q ∧
    (a.HasObject q ∧ b.HasObject q → m.behind? p = a.behind? p) ∧
      (¬ (a.HasObject q ∧ b.HasObject q) → m.behind? p = none)

theorem laidOver_overlay (a : Document) : a.LaidOver b (a.overlay b) where
  of_value := by
    intro p v hv hobject
    rw [behind?_overlay_of_some hb a hv, overlay_of_not_object (.inr hobject)]
  of_object := by
    rintro p ⟨v, hv, hobject⟩
    refine ⟨_, behind?_overlay_of_some hb a hv, ?_⟩
    rw [isObject_overlay]
    exact hobject
  of_none := by
    intro p hp
    obtain ⟨q, key, rest, v, rfl, hv, hkey⟩ := exists_missing_key hp
    refine ⟨q, leavesAt_of_missing_key rest hv hkey, ?_⟩
    have hboth : ((a.behind? q).getD null).isObject ∧ v.isObject ↔
        a.HasObject q ∧ b.HasObject q := by
      rw [isObject_getD_behind?_iff, ← isObject_getD_behind?_iff (a := b), hv, Option.getD_some]
    rw [behind?_overlay_of_missing_key hb a rest hv hkey]
    constructor
    · intro h
      rw [if_pos (hboth.2 h)]
    · intro h
      rw [if_neg (fun h' => h (hboth.1 h'))]

/-! ### Laying the same over it again -/

omit hb in
/-- Entries that are laid over what is there already change nothing. -/
theorem overlayEntries_eq_self (h : ∀ entry ∈ entries, ∃ w, lookup entry.1 under = some w ∧
    w.overlay entry.2 = w) : overlayEntries under entries = under := by
  induction entries with
  | nil => rfl
  | cons entry rest ih =>
    obtain ⟨⟨w, hw, hsame⟩, hrest⟩ := List.forall_mem_cons.1 h
    rw [overlayEntries, hw, Option.getD_some, hsame, assign_of_lookup hw]
    exact ih hrest

theorem overlay_overlay (a : Document) : (a.overlay b).overlay b = a.overlay b := by
  induction hb generalizing a with
  | whole hb => rw [overlay_of_not_object (.inr hb), overlay_of_not_object (.inr hb)]
  | @object entries hn _ ih =>
    -- at each of its keys, the overlay has the entry laid over something
    have hagain : ∀ result, (∀ entry ∈ entries, ∃ u : Document,
        lookup entry.1 result = some (u.overlay entry.2)) →
          (Document.object result).overlay (.object entries) = .object result := by
      intro result hresult
      show Document.object (overlayEntries result entries) = _
      rw [overlayEntries_eq_self]
      intro entry hentry
      obtain ⟨u, hu⟩ := hresult entry hentry
      exact ⟨_, hu, ih entry hentry u⟩
    cases ha : a.isObject with
    | false =>
      rw [overlay_of_not_object (.inl ha)]
      apply hagain
      intro entry hentry
      refine ⟨null, ?_⟩
      rw [lookup_of_mem hn hentry, overlay_of_not_object (.inl rfl)]
    | true =>
      obtain ⟨under, rfl⟩ := exists_entries_of_isObject ha
      apply hagain
      intro entry hentry
      refine ⟨(lookup entry.1 under).getD null, ?_⟩
      rw [lookup_overlayEntries hn, lookup_of_mem hn hentry]
      rfl

/-- A document laid over itself is itself: it was laid over nothing before. -/
theorem overlay_self : b.overlay b = b := by
  have hnothing : null.overlay b = b := overlay_of_not_object (.inl rfl)
  have hagain := overlay_overlay hb null
  rwa [hnothing] at hagain

/-- **An overlay prefers the upper document at every depth.**  Its values are found wherever it has
them, objects are joined, and the lower document is seen where a path leaves the upper one between
two objects.  A document laid over itself changes nothing, and neither does one that is laid over
the same document a second time. -/
theorem overlay_right_biased (a : Document) :
    a.LaidOver b (a.overlay b) ∧ b.overlay b = b ∧ (a.overlay b).overlay b = a.overlay b :=
  ⟨laidOver_overlay hb a, overlay_self hb, overlay_overlay hb a⟩

end Document

/-! ### A page over another one -/

namespace Pages

open Document

/-- A page with an object, a number and a list. -/
def lower : Document :=
  .object [("size", .object [("width", .number (.whole 1)), ("height", .number (.whole 2))]),
    ("color", .number (.whole 3)), ("marks", .list [.null])]

/-- A page that joins the object, and has an object for the number and null for the list. -/
def upper : Document :=
  .object [("size", .object [("height", .number (.whole 20))]),
    ("color", .object [("ink", .bool true)]), ("marks", .null), ("title", .text "x")]

theorem tidy_upper : upper.Tidy := by
  refine .object (by decide) ?_
  simp only [List.forall_mem_cons]
  refine ⟨.object (by decide) ?_, .object (by decide) ?_, .whole rfl, .whole rfl, nofun⟩
  · simp only [List.forall_mem_cons]
    exact ⟨.whole rfl, nofun⟩
  · simp only [List.forall_mem_cons]
    exact ⟨.whole rfl, nofun⟩

/-- The width is the only thing that is seen of the lower page. -/
theorem upper_over_lower : upper.Tidy ∧
    (lower.overlay upper).behind? ["size", "width"] = lower.behind? ["size", "width"] ∧
      lower.LaidOver upper (lower.overlay upper) ∧ upper.overlay upper = upper ∧
        (lower.overlay upper).overlay upper = lower.overlay upper :=
  ⟨tidy_upper, rfl, overlay_right_biased tidy_upper lower⟩

end Pages

end Lawbook
