/-
Lawbook/Proofs/Excerpts.lean

Excerpts: what is kept of a text that is too long, and what is said of the rest.

The definition scans for two positions and slices the text there.  The end of the front is the
greatest position within half of the budget where the text can be cut (`le_frontEnd`), and the start
of the back is the least one from which on there are no more bytes than that (`backStart_le`).  Two
such halves are shorter than the text, so the scans do not cross, and something is left out in
between.

Here this is stated in terms of texts: a text that does not fit is a front, a middle and a back
(`Cut`), where front and back are the longest parts of whole characters within half of the budget
each.  The longest ends of a text are unique.  So `Abridged` does not only hold of the excerpt; it
says which text the excerpt is.

Main result: `excerpt_accounted`.
-/
import Lawbook.Text.Excerpt
import Mathlib.Data.List.Infix

namespace Lawbook.Text

/-! ### Bytes of texts and of characters -/

/-- The size of a list of characters is the size of the text that is made of them. -/
theorem utf8ByteSize_ofList (cs : List Char) : (String.ofList cs).utf8ByteSize = byteSize cs := by
  induction cs with
  | nil => rfl
  | cons c cs ih =>
    have hcons : String.ofList (c :: cs) = String.singleton c ++ String.ofList cs := by
      rw [String.singleton_eq_ofList, ← String.ofList_append]
      rfl
    rw [hcons, String.utf8ByteSize_append, String.utf8ByteSize_singleton, ih, byteSize_cons]

theorem byteSize_toList (s : String) : byteSize s.toList = s.utf8ByteSize := by
  rw [← utf8ByteSize_ofList, String.ofList_toList]

/-- Of two parts with which a list starts, the one with fewer bytes starts the other one. -/
theorem isPrefix_of_byteSize_le {cs front front' : List Char} (hf : front <+: cs)
    (hf' : front' <+: cs) (hsize : byteSize front ≤ byteSize front') : front <+: front' := by
  rcases List.prefix_or_prefix_of_prefix hf hf' with hp | ⟨extra, hextra⟩
  · exact hp
  · have hnone : byteSize extra = 0 := by
      rw [← hextra, byteSize_append] at hsize
      omega
    rw [byteSize_eq_zero_iff] at hnone
    rw [← hextra, hnone, List.append_nil]

/-! ### Where the scans stop -/

section Scans

variable {cs : List Char} {limit half i n : Nat}

/-- The scan for the last end within a limit, from a position within it on: it stops within the
limit, and behind every part that is. -/
theorem lastEnd_greatest (cs : List Char) (hi : i ≤ limit) :
    ((ends i cs).takeWhile (· ≤ limit)).getLast?.getD i ≤ limit ∧
      ∀ front back, cs = front ++ back → i + byteSize front ≤ limit →
        i + byteSize front ≤ ((ends i cs).takeWhile (· ≤ limit)).getLast?.getD i := by
  induction cs generalizing i with
  | nil =>
    refine ⟨hi, fun front back hcs _ => ?_⟩
    rw [(List.append_eq_nil_iff.1 hcs.symm).1]
    exact Nat.le_refl i
  | cons c cs ih =>
    by_cases hc : i + c.utf8Size ≤ limit
    · obtain ⟨hle, hgreatest⟩ := ih hc
      have hstep : (ends i (c :: cs)).takeWhile (· ≤ limit) =
          (i + c.utf8Size) :: (ends (i + c.utf8Size) cs).takeWhile (· ≤ limit) := by
        simp [ends, hc]
      rw [hstep, List.getLast?_cons, Option.getD_some]
      refine ⟨hle, fun front back hcs hsize => ?_⟩
      cases front with
      | nil =>
        have hnext := hgreatest [] cs rfl hc
        exact (Nat.le_add_right i c.utf8Size).trans hnext
      | cons d front =>
        obtain ⟨rfl, rfl⟩ := List.cons.inj hcs
        rw [byteSize_cons, ← Nat.add_assoc] at hsize ⊢
        exact hgreatest front back rfl hsize
    · have hstop : (ends i (c :: cs)).takeWhile (· ≤ limit) = [] := by simp [ends, hc]
      rw [hstop]
      refine ⟨hi, fun front back hcs hsize => ?_⟩
      cases front with
      | nil => exact Nat.le_refl i
      | cons d front =>
        -- the part ends behind the first character, and that is too far
        obtain ⟨rfl, rfl⟩ := List.cons.inj hcs
        rw [byteSize_cons] at hsize
        omega

/-- The scan for the first start from a limit on: it stops there, and before every part that is left
from there on. -/
theorem firstStart_least (cs : List Char) (hlimit : limit ≤ i + byteSize cs) :
    limit ≤ ((starts i cs).find? (limit ≤ ·)).getD (i + byteSize cs) ∧
      ∀ front back, cs = front ++ back → limit ≤ i + byteSize front →
        ((starts i cs).find? (limit ≤ ·)).getD (i + byteSize cs) ≤ i + byteSize front := by
  induction cs generalizing i with
  | nil =>
    refine ⟨hlimit, fun front back hcs _ => ?_⟩
    rw [(List.append_eq_nil_iff.1 hcs.symm).1]
    exact Nat.le_refl i
  | cons c cs ih =>
    by_cases hi : limit ≤ i
    -- the scan stops where it is, and no part that is left begins before
    · have hstop : (starts i (c :: cs)).find? (limit ≤ ·) = some i := by simp [starts, hi]
      rw [hstop, Option.getD_some]
      exact ⟨hi, fun front back _ _ => Nat.le_add_right i _⟩
    · rw [byteSize_cons, ← Nat.add_assoc] at hlimit
      obtain ⟨hle, hleast⟩ := ih hlimit
      have hstep : (starts i (c :: cs)).find? (limit ≤ ·) =
          (starts (i + c.utf8Size) cs).find? (limit ≤ ·) := by simp [starts, hi]
      rw [hstep, byteSize_cons, ← Nat.add_assoc]
      refine ⟨hle, fun front back hcs hsize => ?_⟩
      cases front with
      | nil => exact absurd hsize hi
      | cons d front =>
        obtain ⟨rfl, rfl⟩ := List.cons.inj hcs
        rw [byteSize_cons, ← Nat.add_assoc] at hsize ⊢
        exact hleast front back rfl hsize

/-- The front stays within half of the budget. -/
theorem frontEnd_le : frontEnd half cs ≤ half :=
  (lastEnd_greatest cs (Nat.zero_le half)).1

/-- **The front ends as late as it may.** -/
theorem le_frontEnd (hn : IsCut cs n) (hhalf : n ≤ half) : n ≤ frontEnd half cs := by
  obtain ⟨front, back, hcs, rfl⟩ := hn
  have hgreatest := (lastEnd_greatest cs (Nat.zero_le half)).2 front back hcs
  rw [Nat.zero_add] at hgreatest
  exact hgreatest hhalf

/-- The two ends of a text do not overlap. -/
theorem frontEnd_le_backStart : frontEnd half cs ≤ backStart half cs :=
  Nat.le_max_right _ _

/-- The back stays within half of the budget, too. -/
theorem le_backStart : byteSize cs - half ≤ backStart half cs := by
  have hlimit : byteSize cs - half ≤ 0 + byteSize cs := by omega
  have hfound := (firstStart_least cs hlimit).1
  rw [Nat.zero_add] at hfound
  exact hfound.trans (Nat.le_max_left _ _)

/-- **The back starts as early as it may**, if there is room for both ends. -/
theorem backStart_le (hroom : half + half ≤ byteSize cs) (hn : IsCut cs n)
    (hhalf : byteSize cs ≤ n + half) : backStart half cs ≤ n := by
  obtain ⟨front, back, hcs, rfl⟩ := hn
  have hlimit : byteSize cs - half ≤ 0 + byteSize cs := by omega
  have hleast := (firstStart_least cs hlimit).2 front back hcs
  rw [Nat.zero_add, Nat.zero_add] at hleast
  have hfront : frontEnd half cs ≤ half := frontEnd_le
  -- the scan for the front has stopped before
  exact Nat.max_le.2 ⟨hleast (by omega), by omega⟩

end Scans

/-! ### The longest ends -/

/-- The text starts with `front`, which has at most `budget` bytes, and every other front of the
text with at most as many bytes is a front of this one. -/
structure LongestFront (budget : Nat) (s front : String) : Prop where
  starts : ∃ rest, s = front ++ rest
  size_le : front.utf8ByteSize ≤ budget
  longest : ∀ other rest, s = other ++ rest → other.utf8ByteSize ≤ budget →
    ∃ more, front = other ++ more

/-- The text ends with `back`, which has at most `budget` bytes, and every other back of the text
with at most as many bytes is a back of this one. -/
structure LongestBack (budget : Nat) (s back : String) : Prop where
  ends : ∃ rest, s = rest ++ back
  size_le : back.utf8ByteSize ≤ budget
  longest : ∀ other rest, s = rest ++ other → other.utf8ByteSize ≤ budget →
    ∃ more, back = more ++ other

section Ends

variable {budget : Nat} {s front front' back back' : String}

/-- What is before the end of the front is the longest front. -/
theorem longestFront_of_frontEnd {before rest : List Char} (hs : s.toList = before ++ rest)
    (hend : byteSize before = frontEnd budget s.toList) :
    LongestFront budget s (String.ofList before) where
  starts := by
    refine ⟨String.ofList rest, ?_⟩
    rw [← String.ofList_append, ← hs, String.ofList_toList]
  size_le := by
    rw [utf8ByteSize_ofList, hend]
    exact frontEnd_le
  longest := by
    intro other rest' hother hsize
    have hsplit : s.toList = other.toList ++ rest'.toList := by rw [hother, String.toList_append]
    have hle : byteSize other.toList ≤ byteSize before := by
      rw [hend]
      exact le_frontEnd ⟨_, _, hsplit, rfl⟩ ((byteSize_toList other).le.trans hsize)
    obtain ⟨more, hmore⟩ := isPrefix_of_byteSize_le ⟨_, hsplit.symm⟩ ⟨_, hs.symm⟩ hle
    refine ⟨String.ofList more, ?_⟩
    rw [← hmore, String.ofList_append, String.ofList_toList]

/-- What is from the start of the back on is the longest back. -/
theorem longestBack_of_backStart {rest behind : List Char}
    (hroom : budget + budget ≤ byteSize s.toList) (hs : s.toList = rest ++ behind)
    (hstart : byteSize rest = backStart budget s.toList) :
    LongestBack budget s (String.ofList behind) where
  ends := by
    refine ⟨String.ofList rest, ?_⟩
    rw [← String.ofList_append, ← hs, String.ofList_toList]
  size_le := by
    have hlate : byteSize s.toList - budget ≤ byteSize rest := by
      rw [hstart]
      exact le_backStart
    rw [utf8ByteSize_ofList]
    rw [hs, byteSize_append] at hlate hroom
    omega
  longest := by
    intro other rest' hother hsize
    have hsplit : s.toList = rest'.toList ++ other.toList := by rw [hother, String.toList_append]
    have hle : byteSize rest ≤ byteSize rest'.toList := by
      rw [hstart]
      apply backStart_le hroom ⟨_, _, hsplit, rfl⟩
      rw [hsplit, byteSize_append, byteSize_toList other]
      exact Nat.add_le_add_left hsize _
    obtain ⟨more, hmore⟩ := isPrefix_of_byteSize_le ⟨_, hs.symm⟩ ⟨_, hsplit.symm⟩ hle
    refine ⟨String.ofList more, ?_⟩
    -- what is between the two starts belongs to the longer back
    have hbehind : behind = more ++ other.toList := by
      apply (List.append_right_inj rest).1
      rw [← hs, hsplit, ← hmore, List.append_assoc]
    rw [hbehind, String.ofList_append, String.ofList_toList]

/-- Nothing can be put behind a text without changing its size. -/
theorem eq_of_append_of_size_le {more : String} (hs : front = front' ++ more)
    (hsize : front.utf8ByteSize ≤ front'.utf8ByteSize) : front = front' := by
  have hmore : byteSize more.toList = 0 := by
    rw [hs, String.utf8ByteSize_append] at hsize
    rw [byteSize_toList]
    omega
  rw [byteSize_eq_zero_iff] at hmore
  apply String.toList_inj.1
  rw [hs, String.toList_append, hmore, List.append_nil]

/-- There is one longest front within the budget: of two, each is as long as the other. -/
theorem LongestFront.unique (h : LongestFront budget s front) (h' : LongestFront budget s front') :
    front = front' := by
  obtain ⟨rest, hs⟩ := h.starts
  obtain ⟨rest', hs'⟩ := h'.starts
  obtain ⟨more, hmore⟩ := h.longest front' rest' hs' h'.size_le
  obtain ⟨more', hmore'⟩ := h'.longest front rest hs h.size_le
  apply eq_of_append_of_size_le hmore
  rw [hmore', String.utf8ByteSize_append]
  omega

theorem LongestBack.unique (h : LongestBack budget s back) (h' : LongestBack budget s back') :
    back = back' := by
  obtain ⟨rest, hs⟩ := h.ends
  obtain ⟨rest', hs'⟩ := h'.ends
  obtain ⟨more, hmore⟩ := h.longest back' rest' hs' h'.size_le
  obtain ⟨more', hmore'⟩ := h'.longest back rest hs h.size_le
  have hsize : byteSize more.toList = 0 := by
    have hle := congrArg String.utf8ByteSize hmore
    have hle' := congrArg String.utf8ByteSize hmore'
    rw [String.utf8ByteSize_append] at hle hle'
    rw [byteSize_toList]
    omega
  rw [byteSize_eq_zero_iff] at hsize
  apply String.toList_inj.1
  rw [hmore, String.toList_append, hsize, List.nil_append]

end Ends

/-! ### A text that does not fit -/

/-- A text that is too long for a budget is cut into the ends that are kept and the middle that is
left out. -/
structure Cut (budget : Nat) (s front middle back : String) : Prop where
  /-- Nothing else is lost, and the ends do not overlap. -/
  text_eq : s = front ++ middle ++ back
  /-- The ends are as long as half of the budget allows. -/
  front_longest : LongestFront (budget / 2) s front
  back_longest : LongestBack (budget / 2) s back
  /-- They are sliced off where the scans stop, -/
  front_end : front.utf8ByteSize = frontEnd (budget / 2) s.toList
  back_start : front.utf8ByteSize + middle.utf8ByteSize = backStart (budget / 2) s.toList
  /-- and that is between two characters of the text. -/
  front_valid : String.Pos.Raw.IsValid s ⟨frontEnd (budget / 2) s.toList⟩
  back_valid : String.Pos.Raw.IsValid s ⟨backStart (budget / 2) s.toList⟩
  /-- The middle is all that the ends leave, and there is something in it. -/
  middle_size : middle.utf8ByteSize = s.utf8ByteSize - (front.utf8ByteSize + back.utf8ByteSize)
  middle_pos : 0 < middle.utf8ByteSize
  /-- Together the ends are within the budget. -/
  ends_le : front.utf8ByteSize + back.utf8ByteSize ≤ budget

section Cut

variable {budget : Nat} {s front middle back : String}

theorem IsCut.isValid {n : Nat} (hn : IsCut s.toList n) : String.Pos.Raw.IsValid s ⟨n⟩ := by
  obtain ⟨front, back, hs, rfl⟩ := hn
  apply String.Pos.Raw.isValid_iff_exists_append.2
  refine ⟨String.ofList front, String.ofList back, ?_, ?_⟩
  · rw [← String.ofList_append, ← hs, String.ofList_toList]
  · rw [String.rawEndPos, utf8ByteSize_ofList]

/-- What is sliced off at the two positions leaves a middle, and makes a cut with it. -/
theorem exists_cut {before rest rest' behind : List Char} (hsize : budget < s.utf8ByteSize)
    (hfront : s.toList = before ++ rest)
    (hend : byteSize before = frontEnd (budget / 2) s.toList)
    (hback : s.toList = rest' ++ behind)
    (hstart : byteSize rest' = backStart (budget / 2) s.toList) :
    ∃ middle, Cut budget s (String.ofList before) middle (String.ofList behind) := by
  have htotal : byteSize s.toList = s.utf8ByteSize := byteSize_toList s
  have hroom : budget / 2 + budget / 2 ≤ byteSize s.toList := by omega
  have hf := longestFront_of_frontEnd hfront hend
  have hb := longestBack_of_backStart hroom hback hstart
  -- the scans do not cross
  have hle : byteSize before ≤ byteSize rest' := by
    rw [hend, hstart]
    exact frontEnd_le_backStart
  obtain ⟨between, hbetween⟩ := isPrefix_of_byteSize_le ⟨_, hfront.symm⟩ ⟨_, hback.symm⟩ hle
  have hs : s.toList = before ++ between ++ behind := by rw [hback, hbetween]
  have hsizes : s.utf8ByteSize = byteSize before + byteSize between + byteSize behind := by
    rw [← htotal, hs, byteSize_append, byteSize_append]
  have hfrontsize := hf.size_le
  have hbacksize := hb.size_le
  rw [utf8ByteSize_ofList] at hfrontsize hbacksize
  refine ⟨String.ofList between, {
    text_eq := ?_
    front_longest := hf
    back_longest := hb
    front_end := (utf8ByteSize_ofList before).trans hend
    back_start := ?_
    front_valid := (isCut_frontEnd _ _).isValid
    back_valid := (isCut_backStart _ _).isValid
    middle_size := ?_
    middle_pos := ?_
    ends_le := ?_ }⟩
  · rw [← String.ofList_append, ← String.ofList_append, ← hs, String.ofList_toList]
  · rw [utf8ByteSize_ofList, utf8ByteSize_ofList, ← byteSize_append, hbetween, hstart]
  · rw [utf8ByteSize_ofList, utf8ByteSize_ofList, utf8ByteSize_ofList]
    omega
  · rw [utf8ByteSize_ofList]
    omega
  · rw [utf8ByteSize_ofList, utf8ByteSize_ofList]
    omega

/-- There is one way only to cut a text. -/
theorem Cut.unique {front' middle' back' : String} (hc : Cut budget s front middle back)
    (hc' : Cut budget s front' middle' back') :
    front = front' ∧ middle.utf8ByteSize = middle'.utf8ByteSize ∧ back = back' := by
  obtain rfl := hc.front_longest.unique hc'.front_longest
  obtain rfl := hc.back_longest.unique hc'.back_longest
  exact ⟨rfl, hc.middle_size.trans hc'.middle_size.symm, rfl⟩

end Cut

/-! ### Excerpts -/

/-- How a text is shown within a budget of bytes. -/
inductive Abridged (budget : Nat) (s : String) : String → Prop
  /-- A text that fits is shown unchanged. -/
  | whole : s.utf8ByteSize ≤ budget → Abridged budget s s
  /-- Where nothing may be kept, the note says how many bytes there are. -/
  | note : budget = 0 → budget < s.utf8ByteSize →
      Abridged budget s ("... [" ++ toString s.utf8ByteSize ++ " chars truncated] ...")
  /-- Otherwise the note stands between the ends, and says how many bytes the middle has. -/
  | ends {front middle back : String} : 0 < budget → budget < s.utf8ByteSize →
      Cut budget s front middle back →
      Abridged budget s
        (front ++ " ... [" ++ toString middle.utf8ByteSize ++ " chars truncated] ... " ++ back)

section Excerpt

variable {budget : Nat} {s t t' : String}

/-- An abridged text is determined by the text and the budget. -/
theorem Abridged.unique (h : Abridged budget s t) (h' : Abridged budget s t') : t = t' := by
  cases h with
  | whole hle =>
    cases h' with
    | whole _ => rfl
    | note _ hlt => omega
    | ends _ hlt _ => omega
  | note hzero hlt =>
    cases h' with
    | whole hle => omega
    | note _ _ => rfl
    | ends hpos _ _ => omega
  | ends hpos hlt hc =>
    cases h' with
    | whole hle => omega
    | note hzero _ => omega
    | ends _ _ hc' =>
      obtain ⟨rfl, hmiddle, rfl⟩ := hc.unique hc'
      rw [hmiddle]

/-- The two ends with the note between them. -/
theorem ends_with_gapNote (front back : String) (dropped : Nat) :
    s!"{front} {gapNote dropped} {back}" =
      front ++ " ... [" ++ toString dropped ++ " chars truncated] ... " ++ back := by
  have hleft : " ... [" = " " ++ "... [" := rfl
  have hright : " chars truncated] ... " = " chars truncated] ..." ++ " " := rfl
  show front ++ " " ++ ("... [" ++ toString dropped ++ " chars truncated] ...") ++ " " ++ back = _
  simp only [hleft, hright, String.append_assoc]

/-- Every text has an excerpt, and it is the abridged text. -/
theorem excerpt?_abridged (budget : Nat) (s : String) :
    ∃ t, excerpt? budget s = some t ∧ Abridged budget s t := by
  unfold excerpt?
  dsimp only
  rw [byteSize_toList]
  split
  · next hle => exact ⟨s, rfl, .whole hle⟩
  · next hle =>
    have hlt : budget < s.utf8ByteSize := Nat.lt_of_not_le hle
    split
    · next hzero => exact ⟨_, rfl, .note hzero hlt⟩
    · next hne =>
      obtain ⟨before, rest, hfront, hend⟩ := isCut_frontEnd (budget / 2) s.toList
      obtain ⟨rest', behind, hback, hstart⟩ := isCut_backStart (budget / 2) s.toList
      obtain ⟨middle, hc⟩ := exists_cut hlt hfront hend hback hstart
      have hdropped := hc.middle_size
      rw [utf8ByteSize_ofList, utf8ByteSize_ofList] at hdropped
      refine ⟨_, ?_, .ends (Nat.pos_of_ne_zero hne) hlt hc⟩
      rw [cutAt?_of_eq hfront hend, cutAt?_of_eq hback hstart, ← ends_with_gapNote, hdropped]
      rfl

theorem excerpt_abridged (budget : Nat) (s : String) : Abridged budget s (excerpt budget s) := by
  obtain ⟨t, ht, habridged⟩ := excerpt?_abridged budget s
  unfold excerpt
  simp only [ht, Option.get_some]
  exact habridged

/-- **An excerpt keeps the longest ends and accounts for every byte.**  Every text has an excerpt,
since it is never cut inside a character.  A text is the excerpt exactly if it is the text itself
where that fits, the note alone where nothing may be kept, and otherwise the longest front and the
longest back of whole characters within half of the budget each, around a note of the number of
bytes between them. -/
theorem excerpt_accounted (budget : Nat) (s : String) :
    excerpt? budget s = some (excerpt budget s) ∧
      ∀ t, excerpt budget s = t ↔ Abridged budget s t := by
  constructor
  · exact (Option.some_get _).symm
  · intro t
    constructor
    · rintro rfl
      exact excerpt_abridged budget s
    · intro ht
      exact (excerpt_abridged budget s).unique ht

/-- Five bytes leave room for one character of two bytes on each side, and for none of three. -/
example : excerpt 5 "ééé€" = "é ... [7 chars truncated] ... " := by decide

end Excerpt

end Lawbook.Text
