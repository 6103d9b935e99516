/-
Lawbook/Text/Excerpt.lean

Excerpts of long texts: a prefix and a suffix within a budget of bytes, and between them a note of
how many bytes were left out.

Positions are counted in bytes, and a text is cut only between characters.  One scan finds where the
last character ends that is within half of the budget (`frontEnd`), and another one where the first
character starts from which on the rest is (`backStart`).

* `cutAt?_byteSize` : a text can be cut behind each of its characters;
* `isCut_frontEnd`, `isCut_backStart` : both scans stop where the text can be cut;
* `isSome_excerpt?` : so every text has an excerpt.
-/

namespace Lawbook.Text

/-! ### Sizes in bytes -/

/-- The size of a list of characters in UTF-8. -/
def byteSize : List Char → Nat
  | [] => 0
  | c :: cs => c.utf8Size + byteSize cs

@[simp] theorem byteSize_nil : byteSize [] = 0 := rfl

@[simp] theorem byteSize_cons (c : Char) (cs : List Char) :
    byteSize (c :: cs) = c.utf8Size + byteSize cs := rfl

/-- Sizes add up, so the size of what stands before a position is the position. -/
@[simp] theorem byteSize_append (as bs : List Char) :
    byteSize (as ++ bs) = byteSize as + byteSize bs := by
  induction as with
  | nil => simp
  | cons c cs ih => simp [ih, Nat.add_assoc]

/-- Every character has a size, so only the empty list has none. -/
theorem byteSize_eq_zero_iff {cs : List Char} : byteSize cs = 0 ↔ cs = [] := by
  cases cs with
  | nil => simp
  | cons c cs =>
    have hpos := c.utf8Size_pos
    simp only [byteSize_cons, reduceCtorEq, iff_false]
    omega

/-! ### Positions -/

/-- A position between two characters, or at one of the ends. -/
def IsCut (cs : List Char) (n : Nat) : Prop :=
  ∃ front back, cs = front ++ back ∧ byteSize front = n

/-- Where the characters start, for a list that itself starts at the position `i`. -/
def starts : Nat → List Char → List Nat
  | _, [] => []
  | i, c :: cs => i :: starts (i + c.utf8Size) cs

/-- Where the characters end. -/
def ends : Nat → List Char → List Nat
  | _, [] => []
  | i, c :: cs => (i + c.utf8Size) :: ends (i + c.utf8Size) cs

/-- A character starts where the text can be cut in front of it. -/
theorem exists_of_mem_starts {cs : List Char} {i n : Nat} (hn : n ∈ starts i cs) :
    ∃ front back, cs = front ++ back ∧ i + byteSize front = n := by
  induction cs generalizing i with
  | nil => cases hn
  | cons c cs ih =>
    rcases List.mem_cons.1 hn with rfl | hn
    · exact ⟨[], c :: cs, rfl, rfl⟩
    · obtain ⟨front, back, rfl, hsize⟩ := ih hn
      refine ⟨c :: front, back, rfl, ?_⟩
      rw [byteSize_cons, ← Nat.add_assoc, hsize]

/-- A character ends where the text can be cut behind it. -/
theorem exists_of_mem_ends {cs : List Char} {i n : Nat} (hn : n ∈ ends i cs) :
    ∃ front back, cs = front ++ back ∧ i + byteSize front = n := by
  induction cs generalizing i with
  | nil => cases hn
  | cons c cs ih =>
    rcases List.mem_cons.1 hn with rfl | hn
    · exact ⟨[c], cs, rfl, rfl⟩
    · obtain ⟨front, back, rfl, hsize⟩ := ih hn
      refine ⟨c :: front, back, rfl, ?_⟩
      rw [byteSize_cons, ← Nat.add_assoc, hsize]

/-- The characters before a position and those from it on.  A position inside a character, or
beyond the end, is none. -/
def cutAt? : Nat → List Char → Option (List Char × List Char)
  | 0, cs => some ([], cs)
  | _ + 1, [] => none
  | n + 1, c :: cs =>
    if c.utf8Size ≤ n + 1 then
      (cutAt? (n + 1 - c.utf8Size) cs).map fun cut => (c :: cut.1, cut.2)
    else none

/-- To cut a text behind its front gives back the front and the rest: by induction on the front,
since every character of it fits in the size of the front. -/
theorem cutAt?_byteSize (front back : List Char) :
    cutAt? (byteSize front) (front ++ back) = some (front, back) := by
  induction front with
  | nil => cases back <;> rfl
  | cons c front ih =>
    obtain ⟨n, hn⟩ := Nat.exists_eq_add_of_lt c.utf8Size_pos
    have hsize : byteSize (c :: front) = n + byteSize front + 1 := by
      rw [byteSize_cons]
      omega
    -- the first character fits, and what is left to cut off is the rest of the front
    have hfits : c.utf8Size ≤ n + byteSize front + 1 := by omega
    have hrest : n + byteSize front + 1 - c.utf8Size = byteSize front := by omega
    rw [hsize, List.cons_append, cutAt?, if_pos hfits, hrest, ih]
    rfl

/-- A position that is known to be a cut can be cut at. -/
theorem cutAt?_of_eq {cs front back : List Char} {n : Nat} (hcs : cs = front ++ back)
    (hn : byteSize front = n) : cutAt? n cs = some (front, back) := by
  rw [hcs, ← hn, cutAt?_byteSize]

/-! ### The ends of a text -/

/-- Where the front ends: where the last character does that ends within `half` bytes. -/
def frontEnd (half : Nat) (cs : List Char) : Nat :=
  ((ends 0 cs).takeWhile (· ≤ half)).getLast?.getD 0

/-- Where the back starts: where the first character does from which on there are at most `half`
bytes, but not before the end of the front. -/
def backStart (half : Nat) (cs : List Char) : Nat :=
  let size := byteSize cs
  let target := size - half
  max (((starts 0 cs).find? (target ≤ ·)).getD size) (frontEnd half cs)

/-- The front ends with a character that ends within half of the budget, or it is empty. -/
theorem isCut_frontEnd (half : Nat) (cs : List Char) : IsCut cs (frontEnd half cs) := by
  unfold frontEnd
  cases hlast : ((ends 0 cs).takeWhile (· ≤ half)).getLast? with
  | none => exact ⟨[], cs, rfl, rfl⟩
  | some n =>
    have hmem : n ∈ ends 0 cs :=
      (List.takeWhile_sublist _).subset (List.mem_of_getLast? hlast)
    obtain ⟨front, back, hcs, hsize⟩ := exists_of_mem_ends hmem
    exact ⟨front, back, hcs, (Nat.zero_add _).symm.trans hsize⟩

/-- The back starts with a character, or at the end of the text, or where the front ends.  So it can
be cut off, too, and it never starts inside the front. -/
theorem isCut_backStart (half : Nat) (cs : List Char) : IsCut cs (backStart half cs) := by
  unfold backStart
  dsimp only
  rcases Nat.le_total (((starts 0 cs).find? (byteSize cs - half ≤ ·)).getD (byteSize cs))
    (frontEnd half cs) with hle | hle
  · rw [Nat.max_eq_right hle]
    exact isCut_frontEnd half cs
  · rw [Nat.max_eq_left hle]
    cases hfind : (starts 0 cs).find? (byteSize cs - half ≤ ·) with
    -- no character starts that late: the back is empty
    | none => exact ⟨cs, [], (List.append_nil cs).symm, rfl⟩
    | some n =>
      obtain ⟨front, back, hcs, hsize⟩ := exists_of_mem_starts (List.mem_of_find?_eq_some hfind)
      exact ⟨front, back, hcs, (Nat.zero_add _).symm.trans hsize⟩

/-! ### Excerpts -/

/-- The note that stands for `dropped` bytes. -/
def gapNote (dropped : Nat) : String :=
  s!"... [{dropped} chars truncated] ..."

/-- The text itself if it has at most `budget` bytes; otherwise its two ends within half of the
budget each, around a note of the bytes between them.  A budget of nothing leaves only the note.
There would be no excerpt if a text was to be cut inside a character. -/
def excerpt? (budget : Nat) (s : String) : Option String :=
  let cs := s.toList
  let size := byteSize cs
  if size ≤ budget then some s
  -- with nothing around it, the note has no spaces either
  else if budget = 0 then some (gapNote size)
  else do
    let (front, _) ← cutAt? (frontEnd (budget / 2) cs) cs
    let (_, back) ← cutAt? (backStart (budget / 2) cs) cs
    let gap := gapNote (size - (byteSize front + byteSize back))
    return s!"{String.ofList front} {gap} {String.ofList back}"

/-- **Every text has an excerpt, whatever the budget.**  Both positions can be cut at, so neither
scan leads into the middle of a character. -/
theorem isSome_excerpt? (budget : Nat) (s : String) : (excerpt? budget s).isSome := by
  unfold excerpt?
  dsimp only
  split
  · rfl
  · split
    · rfl
    · obtain ⟨front, rest, hfront, hend⟩ := isCut_frontEnd (budget / 2) s.toList
      obtain ⟨before, back, hback, hstart⟩ := isCut_backStart (budget / 2) s.toList
      rw [cutAt?_of_eq hfront hend, cutAt?_of_eq hback hstart]
      rfl

/-- The excerpt of a text. -/
def excerpt (budget : Nat) (s : String) : String :=
  (excerpt? budget s).get (isSome_excerpt? budget s)

/-- Longest rendering of one value that a report keeps whole. -/
def valueBudget : Nat := 512

/-- Renderings of values in a row, each cut down to the budget of a value. -/
def listing (renderings : List String) : String :=
  ", ".intercalate (renderings.map (excerpt valueBudget))

end Lawbook.Text
