/-
Lawbook/Random/ChaCha.lean

A stream of numbers in the unit interval, determined by a seed of 64 bits.

The seed is spread over a key of eight words; the ChaCha function with twelve rounds turns the key
and a block number into sixteen words; each draw takes two of them and keeps the upper 53 bits as
a binary fraction.  The stream is random access: the `k`-th draw is a function of the seed and of
`k`, so no state has to be carried from draw to draw.
-/

namespace Lawbook.Random

/-! ### Rows of words -/

/-- Four words, one of the rows of the ChaCha square. -/
structure Row where
  a : UInt32
  b : UInt32
  c : UInt32
  d : UInt32
deriving DecidableEq, Repr

namespace Row

/-- The word-wise sum. -/
def add (x y : Row) : Row := ⟨x.a + y.a, x.b + y.b, x.c + y.c, x.d + y.d⟩

/-- The word-wise exclusive or. -/
def xor (x y : Row) : Row := ⟨x.a ^^^ y.a, x.b ^^^ y.b, x.c ^^^ y.c, x.d ^^^ y.d⟩

/-- A word with its bits rotated to the left. -/
def rotateWord (w : UInt32) (n : UInt32) : UInt32 := (w <<< n) ||| (w >>> (32 - n))

/-- Every word with its bits rotated to the left. -/
def rotateBits (x : Row) (n : UInt32) : Row :=
  ⟨rotateWord x.a n, rotateWord x.b n, rotateWord x.c n, rotateWord x.d n⟩

/-- The words moved one place to the left, around the end. -/
def shift (x : Row) : Row := ⟨x.b, x.c, x.d, x.a⟩

/-- The words in order. -/
def words (x : Row) : List UInt32 := [x.a, x.b, x.c, x.d]

end Row

/-! ### The ChaCha function -/

/-- The square of sixteen words on which the rounds work. -/
structure Square where
  r₀ : Row
  r₁ : Row
  r₂ : Row
  r₃ : Row
deriving DecidableEq, Repr

namespace Square

/-- The word-wise sum of two squares. -/
def add (s t : Square) : Square :=
  ⟨s.r₀.add t.r₀, s.r₁.add t.r₁, s.r₂.add t.r₂, s.r₃.add t.r₃⟩

/-- The words of the square, row by row. -/
def words (s : Square) : List UInt32 :=
  s.r₀.words ++ s.r₁.words ++ s.r₂.words ++ s.r₃.words

/-- The quarter round, on all four columns at once. -/
def columnRound (s : Square) : Square :=
  let a := s.r₀.add s.r₁
  let d := (s.r₃.xor a).rotateBits 16
  let c := s.r₂.add d
  let b := (s.r₁.xor c).rotateBits 12
  let a := a.add b
  let d := (d.xor a).rotateBits 8
  let c := c.add d
  let b := (b.xor c).rotateBits 7
  ⟨a, b, c, d⟩

/-- The rows moved so that diagonals become columns. -/
def slant (s : Square) : Square :=
  ⟨s.r₀, s.r₁.shift, s.r₂.shift.shift, s.r₃.shift.shift.shift⟩

/-- The rows moved back. -/
def unslant (s : Square) : Square :=
  ⟨s.r₀, s.r₁.shift.shift.shift, s.r₂.shift.shift, s.r₃.shift⟩

/-- A round on the columns and a round on the diagonals. -/
def doubleRound (s : Square) : Square :=
  s.columnRound.slant.columnRound.unslant

/-- The given number of double rounds. -/
def rounds : Nat → Square → Square
  | 0, s => s
  | n + 1, s => rounds n s.doubleRound

/-- The words of a block: the rounds' result added to what they started from. -/
def block (s : Square) : List UInt32 :=
  ((s.rounds 6).add s).words

end Square

/-! ### Keys from seeds -/

/-- The first row of every square: the text `expand 32-byte k` as little-endian words. -/
def constantRow : Row := ⟨0x61707865, 0x3320646e, 0x79622d32, 0x6b206574⟩

/-- One step of the generator that spreads a seed over a key. -/
def spread (state : UInt64) : UInt64 :=
  state * 6364136223846793005 + 11634580027462260723

/-- The key word of a state of that generator. -/
def keyWord (state : UInt64) : UInt32 :=
  -- the upper five bits say by how much the rest is rotated
  let x := (((state >>> 18) ^^^ state) >>> 27).toUInt32
  let n := (state >>> 59).toUInt32
  (x >>> n) ||| (x <<< ((32 - n) % 32))

/-- The key of a seed. -/
def keyRows (seed : UInt64) : Row × Row :=
  let s₁ := spread seed
  let s₂ := spread s₁
  let s₃ := spread s₂
  let s₄ := spread s₃
  let s₅ := spread s₄
  let s₆ := spread s₅
  let s₇ := spread s₆
  let s₈ := spread s₇
  (⟨keyWord s₁, keyWord s₂, keyWord s₃, keyWord s₄⟩,
   ⟨keyWord s₅, keyWord s₆, keyWord s₇, keyWord s₈⟩)

/-! ### The stream of a seed -/

/-- The words of the block of the given number. -/
def blockOf (seed number : UInt64) : List UInt32 :=
  let (k₁, k₂) := keyRows seed
  Square.block ⟨constantRow, k₁, k₂, ⟨number.toUInt32, (number >>> 32).toUInt32, 0, 0⟩⟩

/-- Two words as a binary fraction of 53 bits. -/
def unitFraction (low high : UInt32) : Float :=
  (((high.toUInt64 <<< 32) ||| low.toUInt64) >>> 11).toFloat * Float.ofBits 0x3CA0000000000000

/-- The `k`-th number of the stream of a seed.  A block holds eight draws. -/
def seededDraw (seed : UInt64) (k : Nat) : Float :=
  match (blockOf seed (.ofNat (k / 8))).drop (2 * (k % 8)) with
  | low :: high :: _ => unitFraction low high
  | _ => 0.0

end Lawbook.Random
