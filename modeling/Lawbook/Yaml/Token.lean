/-
Lawbook/Yaml/Token.lean

The tokens of YAML text.

Indentation opens and closes block lists and block maps; brackets and braces open and close flow
lists and flow maps.  That a scalar or a flow collection is a key shows only at the colon behind
it, which has to follow on the same line: until then its place among the tokens is kept as a
candidate, where the mark of a key is put when the colon comes.

* `gap` : blanks, comments and line breaks between tokens;
* `plain`, `singleQuoted`, `doubleQuoted` : scalars, with line breaks folded;
* `tokens?` : the tokens of a text.
-/
import Lawbook.Json.Token

namespace Lawbook.Yaml

/-- A token of YAML text. -/
inductive Token where
  | documentStart
  | documentEnd
  /-- The start of a block list. -/
  | blockList
  /-- The start of a block map. -/
  | blockMap
  /-- The end of a block list or a block map. -/
  | blockEnd
  /-- The dash in front of an item. -/
  | dash
  /-- The mark of a key, written or not. -/
  | key
  /-- The mark of a value. -/
  | value
  | openList
  | closeList
  | openMap
  | closeMap
  | comma
  | scalar (content : String) (isPlain : Bool)
deriving DecidableEq, Repr

/-! ### Characters and places -/

/-- Whether a character ends a line. -/
def isBreak (c : Char) : Bool :=
  c = '\n' || c = '\u2028' || c = '\u2029'

/-- Whether a character is a space or a tab. -/
def isSpace (c : Char) : Bool :=
  c = ' ' || c = '\t'

/-- Whether what follows starts with a space, a tab, a line break or nothing. -/
def startsBlank : List Char → Bool
  | [] => true
  | c :: _ => isSpace c || isBreak c

/-- Whether a character may stand in a text. -/
def isAllowed (c : Char) : Bool :=
  let n := c.toNat
  c = '\t' || c = '\n' || c = '\r' || n = 0x85 || (0x20 ≤ n && n ≤ 0x7E) ||
    (0xA0 ≤ n && n ≤ 0xFFFD) || 0x10000 ≤ n

/-- The text with one kind of line break for the usual ones. -/
def unifyBreaks : List Char → List Char
  | [] => []
  | '\r' :: '\n' :: cs => '\n' :: unifyBreaks cs
  | '\r' :: cs => '\n' :: unifyBreaks cs
  | c :: cs => (if c.toNat = 0x85 then '\n' else c) :: unifyBreaks cs

/-- A place in a text. -/
structure Place where
  line : Nat
  column : Nat
  offset : Nat
deriving Repr

namespace Place

/-- The place behind a character. -/
def after (p : Place) (c : Char) : Place :=
  if isBreak c then ⟨p.line + 1, 0, p.offset + 1⟩ else ⟨p.line, p.column + 1, p.offset + 1⟩

/-- The place `n` characters further on the same line. -/
def right (p : Place) (n : Nat) : Place :=
  ⟨p.line, p.column + n, p.offset + n⟩

end Place

/-- A place and the text from there on. -/
structure Cursor where
  place : Place
  rest : List Char
deriving Repr

/-- The cursor `n` characters further on the same line. -/
def Cursor.right (c : Cursor) (n : Nat) : Cursor :=
  ⟨c.place.right n, c.rest.drop n⟩

/-- Whether a line starts with a mark between documents. -/
def isMark (p : Place) (cs : List Char) : Bool :=
  p.column = 0 && (cs.take 3 = ['-', '-', '-'] || cs.take 3 = ['.', '.', '.']) &&
    startsBlank (cs.drop 3)

/-! ### Between tokens -/

/-- The byte order mark.  In front of a line it is skipped, but takes a column. -/
def byteOrderMark : Char := '\ufeff'

/-- Skips what stands between tokens.  Tabs count as blanks only where no key can start.  A line
break outside of brackets makes a key possible. -/
def gap (inFlow : Bool) (keyAllowed comment : Bool) (p : Place) : List Char → Bool × Cursor
  | [] => (keyAllowed, ⟨p, []⟩)
  | c :: cs =>
    if isBreak c then gap inFlow (keyAllowed || !inFlow) false (p.after c) cs
    else if comment then gap inFlow keyAllowed true (p.after c) cs
    else if c = ' ' || (c = '\t' && (inFlow || !keyAllowed)) ||
        (c = byteOrderMark && p.column = 0) then
      gap inFlow keyAllowed false (p.after c) cs
    else if c = '#' then gap inFlow keyAllowed true (p.after c) cs
    else (keyAllowed, ⟨p, c :: cs⟩)

/-! ### Folding -/

/-- Blanks and line breaks inside a scalar.  Blanks and breaks are kept in reverse. -/
structure Fold where
  blanks : List Char
  /-- Whether there was a line break. -/
  broken : Bool
  /-- The first line break, unless it was escaped. -/
  first : Option Char
  /-- The line breaks behind the first one. -/
  more : List Char

namespace Fold

/-- Nothing to fold. -/
def none : Fold := ⟨[], false, .none, []⟩

/-- An escaped line break. -/
def escaped : Fold := ⟨[], true, .none, []⟩

/-- One more blank or line break. -/
def add (f : Fold) (c : Char) : Fold :=
  if isBreak c then
    if f.broken then { f with more := c :: f.more } else ⟨[], true, some c, []⟩
  else if f.broken then f
  else { f with blanks := c :: f.blanks }

/-- Whether there was anything. -/
def isSome (f : Fold) : Bool :=
  f.broken || !f.blanks.isEmpty

/-- What is left of it, in reverse: the blanks of a line, a space for one line break, and one
break less for several. -/
def content (f : Fold) : List Char :=
  if f.broken then
    match f.first with
    | some '\n' => if f.more.isEmpty then [' '] else f.more
    | some c => f.more ++ [c]
    | .none => f.more
  else f.blanks

end Fold

/-! ### Scalars -/

/-- A scalar in single quotes, from behind the first quote.  `read` is its content in reverse. -/
def singleQuoted (read : List Char) (f : Fold) (p : Place) :
    List Char → Option (String × Cursor)
  | [] => none
  | c :: cs =>
    if isSpace c || isBreak c then singleQuoted read (f.add c) (p.after c) cs
    else if isMark p (c :: cs) then none
    else if c = '\x27' then
      match cs with
      | '\x27' :: cs' => singleQuoted ('\x27' :: (f.content ++ read)) .none (p.right 2) cs'
      | _ => some (String.ofList (f.content ++ read).reverse, ⟨p.right 1, cs⟩)
    else singleQuoted (c :: (f.content ++ read)) .none (p.right 1) cs

/-- The character of an escape without digits. -/
def shortEscape? : Char → Option Char
  | '0' => some (Char.ofNat 0)
  | 'a' => some '\x07'
  | 'b' => some '\x08'
  | 't' => some '\t'
  | '\t' => some '\t'
  | 'n' => some '\n'
  | 'v' => some '\x0b'
  | 'f' => some '\x0c'
  | 'r' => some '\r'
  | 'e' => some '\x1b'
  | ' ' => some ' '
  | '"' => some '"'
  | '/' => some '/'
  | '\\' => some '\\'
  | 'N' => some '\u0085'
  | '_' => some '\u00a0'
  | 'L' => some '\u2028'
  | 'P' => some '\u2029'
  | _ => none

/-- The number of digits of an escape by code point. -/
def escapeDigits : Char → Nat
  | 'x' => 2
  | 'u' => 4
  | 'U' => 8
  | _ => 0

/-- The character of a code point that has one. -/
def codePoint? (n : Nat) : Option Char :=
  if n < 0xD800 || (0xE000 ≤ n && n ≤ 0x10FFFF) then some (Char.ofNat n) else none

/-- The character of an escape, from behind the backslash, and how many characters it takes. -/
def escape? : List Char → Option (Char × Nat)
  | [] => none
  | c :: cs =>
    let count := escapeDigits c
    if count = 0 then (shortEscape? c).map fun d => (d, 1)
    else if cs.length < count then none
    else do
      let n ← (cs.take count).foldlM (fun n d => (Json.hexDigit? d).map (16 * n + ·)) 0
      return (← codePoint? n, count + 1)

/-- A scalar in double quotes, from behind the first quote.  `skip` counts characters of an escape
that are still to be passed over. -/
def doubleQuoted (read : List Char) (f : Fold) (skip : Nat) (p : Place) :
    List Char → Option (String × Cursor)
  | [] => none
  | c :: cs =>
    if 0 < skip then doubleQuoted read f (skip - 1) (p.after c) cs
    else if isSpace c || isBreak c then doubleQuoted read (f.add c) 0 (p.after c) cs
    else if isMark p (c :: cs) then none
    else if c = '"' then some (String.ofList (f.content ++ read).reverse, ⟨p.right 1, cs⟩)
    else if c = '\\' then
      match cs with
      | [] => none
      | d :: _ =>
        -- an escaped line break joins the lines without a space
        if isBreak d then doubleQuoted (f.content ++ read) .escaped 1 (p.right 1) cs
        else
          match escape? cs with
          | none => none
          | some (e, count) => doubleQuoted (e :: (f.content ++ read)) .none count (p.right 1) cs
    else doubleQuoted (c :: (f.content ++ read)) .none 0 (p.right 1) cs

/-- Whether a character ends a plain scalar between brackets. -/
def isFlowMark (c : Char) : Bool :=
  c = ',' || c = '[' || c = ']' || c = '\x7b' || c = '\x7d'

/-- Whether a plain scalar ends in front of a character that is no blank.  In a block it goes on for
as long as lines are indented by `indent` columns. -/
def endsPlain (inFlow : Bool) (indent : Nat) (f : Fold) (p : Place) (c : Char)
    (cs : List Char) : Bool :=
  (f.isSome && ((!inFlow && p.column < indent) || isMark p (c :: cs) || c = '#')) ||
    (c = ':' && startsBlank cs) || (inFlow && isFlowMark c)

/-- A plain scalar, from its first character on, with whether it ended behind a line break. -/
def plain (inFlow : Bool) (indent : Nat) (read : List Char) (f : Fold) (p : Place) :
    List Char → Option (String × Bool × Cursor)
  | [] => some (String.ofList read.reverse, f.broken, ⟨p, []⟩)
  | c :: cs =>
    if isSpace c || isBreak c then
      -- a tab cannot indent the line on which a scalar goes on
      if c = '\t' && f.broken && p.column < indent then none
      else plain inFlow indent read (f.add c) (p.after c) cs
    else if endsPlain inFlow indent f p c cs then
      some (String.ofList read.reverse, f.broken, ⟨p, c :: cs⟩)
    -- between brackets a colon has to stand apart from the marks there
    else if c = ':' && inFlow && (cs.head?.any fun d => isFlowMark d || d = '?') then none
    else plain inFlow indent (c :: (f.content ++ read)) .none (p.after c) cs

/-- Whether a plain scalar can start with the given text. -/
def startsPlain (inFlow : Bool) : List Char → Bool
  | [] => false
  | c :: cs =>
    if c = '-' then !(cs.head?.any isSpace)
    else if c = '?' || c = ':' then !inFlow && !startsBlank cs
    else !startsBlank [c] && !isFlowMark c && !"#&*!|>'\"%@\x60".toList.contains c

/-! ### Scanning -/

/-- The place of a scalar or a flow collection that may turn out to be a key. -/
structure Candidate where
  /-- The number of tokens before it. -/
  position : Nat
  place : Place
  /-- Whether nothing but a key can stand there. -/
  required : Bool

/-- The state of scanning. -/
structure Scan where
  cursor : Cursor
  tokens : Array Token
  /-- The column of the innermost block, or -1. -/
  indent : Int
  /-- The columns of the blocks around it. -/
  outerIndents : List Int
  keyAllowed : Bool
  candidate : Option Candidate
  /-- The candidates around each open bracket. -/
  outerCandidates : List (Option Candidate)

namespace Scan

/-- Whether a bracket is open. -/
def inFlow (s : Scan) : Bool :=
  !s.outerCandidates.isEmpty

/-- Adds a token. -/
def push (s : Scan) (t : Token) : Scan :=
  { s with tokens := s.tokens.push t }

/-- Moves the cursor on. -/
def right (s : Scan) (n : Nat) : Scan :=
  { s with cursor := s.cursor.right n }

/-- Closes blocks that are indented more than a column. -/
def closeBlocks (column indent : Int) (tokens : Array Token) :
    List Int → Int × List Int × Array Token
  | [] => (indent, [], tokens)
  | outer :: outers =>
    if column < indent then closeBlocks column outer (tokens.push .blockEnd) outers
    else (indent, outer :: outers, tokens)

/-- Closes blocks that are indented more than a column, unless a bracket is open. -/
def unindent (column : Int) (s : Scan) : Scan :=
  if s.inFlow then s
  else
    let (indent, outerIndents, tokens) := closeBlocks column s.indent s.tokens s.outerIndents
    { s with indent, outerIndents, tokens }

/-- Opens a block at a column, unless there is one or a bracket is open.  The token goes in at
the given position. -/
def indentTo (column position : Nat) (t : Token) (s : Scan) : Scan :=
  if s.inFlow || (column : Int) ≤ s.indent then s
  else
    { s with
      tokens := s.tokens.insertIdxIfInBounds position t
      indent := column
      outerIndents := s.indent :: s.outerIndents }

/-- Gives the candidate up. -/
def dropCandidate (s : Scan) : Option Scan :=
  match s.candidate with
  | some c => if c.required then none else some { s with candidate := none }
  | none => some s

/-- The candidate if it can still be a key: it is on the line of the cursor, and not far back.
The outer option is an error. -/
def freshen (p : Place) : Option Candidate → Option (Option Candidate)
  | none => some none
  | some c =>
    if c.place.line < p.line || c.place.offset + 1024 < p.offset then
      if c.required then none else some none
    else some (some c)

/-- Gives the candidate up if it can no longer be a key.  One around an open bracket gets no fresher
while it waits, so it is enough to look at it when the bracket is closed. -/
def dropStale (s : Scan) : Option Scan := do
  return { s with candidate := ← freshen s.cursor.place s.candidate }

/-- Makes what starts at the cursor a candidate, where a key is possible. -/
def nominate (s : Scan) : Option Scan :=
  if s.keyAllowed then do
    -- in a block map, whatever starts in its column has to be a key
    let required := !s.inFlow && s.indent == s.cursor.place.column
    let s ← s.dropCandidate
    return { s with candidate := some ⟨s.tokens.size, s.cursor.place, required⟩ }
  else some s

/-- A mark between documents. -/
def documentMark (t : Token) (s : Scan) : Option Scan := do
  let s ← (s.unindent (-1)).dropCandidate
  return ({ s with keyAllowed := false }.push t).right 3

/-- An opening bracket. -/
def openFlow (t : Token) (s : Scan) : Option Scan := do
  let s ← s.nominate
  return ({ s with
    outerCandidates := s.candidate :: s.outerCandidates
    candidate := none
    keyAllowed := true }.push t).right 1

/-- A closing bracket. -/
def closeFlow (t : Token) (s : Scan) : Option Scan := do
  let s ← s.dropCandidate
  let s := match s.outerCandidates with
    | [] => s
    | candidate :: outerCandidates => { s with candidate, outerCandidates }
  return ({ s with keyAllowed := false }.push t).right 1

/-- A comma between brackets. -/
def comma (s : Scan) : Option Scan := do
  let s ← s.dropCandidate
  return ({ s with keyAllowed := true }.push .comma).right 1

/-- A dash in front of an item. -/
def dash (s : Scan) : Option Scan :=
  if !s.inFlow && !s.keyAllowed then none
  else do
    let s ← (s.indentTo s.cursor.place.column s.tokens.size .blockList).dropCandidate
    return ({ s with keyAllowed := true }.push .dash).right 1

/-- The written mark of a key. -/
def keyMark (s : Scan) : Option Scan :=
  if !s.inFlow && !s.keyAllowed then none
  else do
    let s ← (s.indentTo s.cursor.place.column s.tokens.size .blockMap).dropCandidate
    return ({ s with keyAllowed := !s.inFlow }.push .key).right 1

/-- The mark of a value, which makes the candidate a key. -/
def valueMark (s : Scan) : Option Scan :=
  match s.candidate with
  | some c =>
    -- the map is opened in front of its first key, after the key is marked
    let s := { s with tokens := s.tokens.insertIdxIfInBounds c.position .key }
    let s := s.indentTo c.place.column c.position .blockMap
    some (({ s with candidate := none, keyAllowed := false }.push .value).right 1)
  | none =>
    if !s.inFlow && !s.keyAllowed then none
    else
      let s := s.indentTo s.cursor.place.column s.tokens.size .blockMap
      some (({ s with keyAllowed := !s.inFlow }.push .value).right 1)

/-- A scalar in quotes. -/
def quoted (read : Place → List Char → Option (String × Cursor)) (s : Scan) : Option Scan := do
  let s ← s.nominate
  let start := s.cursor.right 1
  let (content, cursor) ← read start.place start.rest
  return { s with cursor, keyAllowed := false }.push (.scalar content false)

/-- A plain scalar. -/
def plainScalar (s : Scan) : Option Scan := do
  let s ← s.nominate
  let (content, broken, cursor) ←
    plain s.inFlow (s.indent + 1).toNat [] .none s.cursor.place s.cursor.rest
  return { s with cursor, keyAllowed := broken }.push (.scalar content true)

/-- Takes one token. -/
def step (s : Scan) : Option Scan :=
  let p := s.cursor.place
  match s.cursor.rest with
  | [] => some s
  | c :: cs =>
    if isMark p (c :: cs) then s.documentMark (if c = '-' then .documentStart else .documentEnd)
    else if p.column = 0 && c = '%' then none
    else if c = '[' then s.openFlow .openList
    else if c = '\x7b' then s.openFlow .openMap
    else if c = ']' then s.closeFlow .closeList
    else if c = '\x7d' then s.closeFlow .closeMap
    else if c = ',' then s.comma
    else if c = '-' && startsBlank cs then s.dash
    else if c = '?' && (s.inFlow || startsBlank cs) then s.keyMark
    else if c = ':' && (s.inFlow || startsBlank cs) then s.valueMark
    else if c = '\x27' then s.quoted (singleQuoted [] .none)
    else if c = '"' then s.quoted (doubleQuoted [] .none 0)
    else if startsPlain s.inFlow (c :: cs) then s.plainScalar
    else none

/-- Skips to the next token and closes the blocks that end before it. -/
def toNext (s : Scan) : Option Scan := do
  let (keyAllowed, cursor) := gap s.inFlow s.keyAllowed false s.cursor.place s.cursor.rest
  let s ← { s with keyAllowed, cursor }.dropStale
  return s.unindent cursor.place.column

/-- Takes up to the given number of tokens, to the end of the text. -/
def run : Nat → Scan → Option (Array Token)
  | 0, _ => none
  | n + 1, s => do
    let s ← s.toNext
    if s.cursor.rest.isEmpty then return (← (s.unindent (-1)).dropCandidate).tokens
    else run n (← s.step)

end Scan

/-- The tokens of a text.  Every token takes a character at least. -/
def tokens? (cs : List Char) : Option (List Token) := do
  if !cs.all isAllowed then none
  else
    let start : Scan :=
      ⟨⟨⟨0, 0, 0⟩, unifyBreaks cs⟩, #[], -1, [], true, none, []⟩
    return (← start.run (cs.length + 1)).toList

end Lawbook.Yaml
