/-
Lawbook/Json/Token.lean

The tokens of JSON text.

The text is read from left to right, one character at a time, and split into marks of punctuation,
quoted texts and words; a word is a literal or a number.  Control characters do not stand in
quoted text, and the escapes of code points pair up where they are halves of one character.
-/
import Lawbook.Json.Numeral

namespace Lawbook.Json

/-- A token of JSON text. -/
inductive Token where
  | openList
  | closeList
  | openObject
  | closeObject
  | comma
  | colon
  | text (s : String)
  /-- A literal or a number. -/
  | atom (value : Document)

/-! ### Quoted text -/

/-- The value of a hexadecimal digit. -/
def hexDigit? (c : Char) : Option Nat :=
  if c.isDigit then some (c.toNat - '0'.toNat)
  else if 'a' ≤ c ∧ c ≤ 'f' then some (c.toNat - 'a'.toNat + 10)
  else if 'A' ≤ c ∧ c ≤ 'F' then some (c.toNat - 'A'.toNat + 10)
  else none

/-- The value of four hexadecimal digits. -/
def hexWord? (a b c d : Char) : Option Nat := do
  return (((← hexDigit? a) * 16 + (← hexDigit? b)) * 16 + (← hexDigit? c)) * 16 + (← hexDigit? d)

/-- Whether a number is the first half of a character beyond the basic plane. -/
def isHighHalf (n : Nat) : Bool := 0xD800 ≤ n && n < 0xDC00

/-- Whether a number is the second half. -/
def isLowHalf (n : Nat) : Bool := 0xDC00 ≤ n && n < 0xE000

/-- The character of two halves. -/
def joinHalves (high low : Nat) : Char :=
  Char.ofNat (0x10000 + (high - 0xD800) * 0x400 + (low - 0xDC00))

/-- The character of a short escape. -/
def shortEscape? : Char → Option Char
  | '"' => some '"'
  | '\\' => some '\\'
  | '/' => some '/'
  | 'b' => some '\x08'
  | 'f' => some '\x0c'
  | 'n' => some '\n'
  | 'r' => some '\r'
  | 't' => some '\t'
  | _ => none

/-- The characters that quoted text stands for. -/
def unescape : List Char → Option (List Char)
  | [] => some []
  | '\\' :: 'u' :: a :: b :: c :: d :: '\\' :: 'u' :: e :: f :: g :: h :: rest => do
    let n ← hexWord? a b c d
    -- a first half needs its second half right behind it
    if isHighHalf n then
      let m ← hexWord? e f g h
      if isLowHalf m then return joinHalves n m :: (← unescape rest) else none
    else if isLowHalf n then none
    else return Char.ofNat n :: (← unescape ('\\' :: 'u' :: e :: f :: g :: h :: rest))
  | '\\' :: 'u' :: a :: b :: c :: d :: rest => do
    let n ← hexWord? a b c d
    if isHighHalf n || isLowHalf n then none
    else return Char.ofNat n :: (← unescape rest)
  | '\\' :: c :: rest => do return (← shortEscape? c) :: (← unescape rest)
  | ['\\'] => none
  | c :: rest => do
    if c.toNat < 0x20 then none else return c :: (← unescape rest)

/-! ### Words -/

/-- The value of a word: a literal or a number. -/
def atom? (cs : List Char) : Option Document :=
  if cs = ['n', 'u', 'l', 'l'] then some .null
  else if cs = ['t', 'r', 'u', 'e'] then some (.bool true)
  else if cs = ['f', 'a', 'l', 's', 'e'] then some (.bool false)
  else (numeral? cs).map .number

/-- Whether a character is part of a word. -/
def isWordChar (c : Char) : Bool :=
  c.isAlphanum || c = '-' || c = '+' || c = '.'

/-- Whether a character may stand between tokens. -/
def isSpace (c : Char) : Bool :=
  c = ' ' || c = '\n' || c = '\r' || c = '\t'

/-- The token of a punctuation mark. -/
def mark? : Char → Option Token
  | '[' => some .openList
  | ']' => some .closeList
  | '\x7b' => some .openObject
  | '\x7d' => some .closeObject
  | ',' => some .comma
  | ':' => some .colon
  | _ => none

/-! ### Splitting -/

/-- What the reader is in the middle of.  What was read so far of a word or a text is kept in
reverse. -/
inductive Mode where
  | between
  | word (read : List Char)
  | text (read : List Char)
  | escape (read : List Char)

/-- The state of splitting: the tokens so far, in reverse, and what is under way. -/
structure Splitting where
  tokens : List Token
  mode : Mode

namespace Splitting

/-- Starts what begins with a character between tokens. -/
def start (tokens : List Token) (c : Char) : Option Splitting :=
  if isSpace c then some ⟨tokens, .between⟩
  else if c = '"' then some ⟨tokens, .text []⟩
  else if isWordChar c then some ⟨tokens, .word [c]⟩
  else (mark? c).map fun mark => ⟨mark :: tokens, .between⟩

/-- Takes one character. -/
def step (s : Splitting) (c : Char) : Option Splitting :=
  match s.mode with
  | .between => start s.tokens c
  | .word read =>
    if isWordChar c then some { s with mode := .word (c :: read) }
    else do start (.atom (← atom? read.reverse) :: s.tokens) c
  | .text read =>
    if c = '"' then do
      return ⟨.text (String.ofList (← unescape read.reverse)) :: s.tokens, .between⟩
    else if c = '\\' then some { s with mode := .escape read }
    else some { s with mode := .text (c :: read) }
  | .escape read => some { s with mode := .text (c :: '\\' :: read) }

/-- The tokens when the text is over. -/
def finish (s : Splitting) : Option (List Token) :=
  match s.mode with
  | .between => some s.tokens.reverse
  | .word read => do return (.atom (← atom? read.reverse) :: s.tokens).reverse
  | .text _ => none
  | .escape _ => none

end Splitting

/-- Splits a text into tokens. -/
def tokens? (cs : List Char) : Option (List Token) := do
  (← cs.foldlM Splitting.step ⟨[], .between⟩).finish

end Lawbook.Json
