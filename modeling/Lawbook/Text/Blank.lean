/-
Lawbook/Text/Blank.lean

Blank characters, and the trimming of blanks at the ends of a text.

A character is blank when Unicode gives it the property `White_Space`.  Trimming is defined on
lists of characters, where `trimmedEnd` and `trimmedStart` have short laws, and lifted to texts.

* `trimmedEnd_eq_nil_iff` : trimming empties exactly the texts made of blanks;
* `trimmedEnd_append` : only blanks at the very end of a concatenation go;
* `trimEnd_trimEnd` : trimming twice is trimming once.
-/

namespace Lawbook.Text

/-! ### Blank characters -/

/-- The code points with the property `White_Space`, as inclusive ranges in ascending order. -/
def blankRanges : List (Nat × Nat) :=
  [(0x09, 0x0D), (0x20, 0x20), (0x85, 0x85), (0xA0, 0xA0), (0x1680, 0x1680), (0x2000, 0x200A),
   (0x2028, 0x2029), (0x202F, 0x202F), (0x205F, 0x205F), (0x3000, 0x3000)]

/-- Whether a character is white space. -/
def isBlank (c : Char) : Bool :=
  blankRanges.any fun range => range.1 ≤ c.toNat && c.toNat ≤ range.2

/-! ### Trimming a list of characters -/

/-- The characters without the blanks in front. -/
def trimmedStart (cs : List Char) : List Char :=
  cs.dropWhile isBlank

/-- The characters without the blanks at the end. -/
def trimmedEnd (cs : List Char) : List Char :=
  (cs.reverse.dropWhile isBlank).reverse

@[simp] theorem trimmedEnd_nil : trimmedEnd [] = [] := rfl

/-- A character that is not blank ends the trimming. -/
theorem trimmedEnd_concat_of_not_blank {cs : List Char} {c : Char} (h : isBlank c = false) :
    trimmedEnd (cs ++ [c]) = cs ++ [c] := by
  simp [trimmedEnd, h]

theorem dropWhile_eq_nil_iff_all {p : Char → Bool} (cs : List Char) :
    cs.dropWhile p = [] ↔ ∀ c ∈ cs, p c := by
  induction cs with
  | nil => simp
  | cons c cs ih => by_cases h : p c <;> simp [h, ih]

/-- Trimming empties exactly the lists that are made of blanks. -/
theorem trimmedEnd_eq_nil_iff (cs : List Char) :
    trimmedEnd cs = [] ↔ ∀ c ∈ cs, isBlank c := by
  rw [trimmedEnd, List.reverse_eq_nil_iff, dropWhile_eq_nil_iff_all]
  simp only [List.mem_reverse]

/-- Trimming a concatenation reaches the first part only where the second one is made of blanks. -/
theorem trimmedEnd_append (as bs : List Char) :
    trimmedEnd (as ++ bs) = if trimmedEnd bs = [] then trimmedEnd as else as ++ trimmedEnd bs := by
  by_cases h : bs.reverse.dropWhile isBlank = []
  · simp [trimmedEnd, List.dropWhile_append, h]
  · simp [trimmedEnd, List.dropWhile_append, h]

/-! ### Trimming a text -/

/-- The text without the blanks at its end. -/
def trimEnd (s : String) : String :=
  String.ofList (trimmedEnd s.toList)

/-- The text without the blanks at its two ends. -/
def trim (s : String) : String :=
  String.ofList (trimmedStart (trimmedEnd s.toList))

/-- Whether a text holds nothing but blanks. -/
def isBlankText (s : String) : Bool :=
  s.toList.all isBlank

/-- Trimming twice is trimming once. -/
theorem trimmedEnd_trimmedEnd (cs : List Char) : trimmedEnd (trimmedEnd cs) = trimmedEnd cs := by
  suffices h : ∀ l : List Char, (l.dropWhile isBlank).dropWhile isBlank = l.dropWhile isBlank by
    simp [trimmedEnd, h]
  intro l
  induction l with
  | nil => rfl
  | cons c l ih => by_cases h : isBlank c <;> simp [h, ih]

@[simp] theorem trimEnd_trimEnd (s : String) : trimEnd (trimEnd s) = trimEnd s := by
  simp [trimEnd, trimmedEnd_trimmedEnd]

end Lawbook.Text
