/-
Lawbook/Identity/Uuid.lean

The written form of generator identities: universally unique identifiers.

An identity is written as 32 hexadecimal digits in lower case, in groups of 8, 4, 4, 4 and 12 with
hyphens between them.  It is also read without hyphens, in braces, and behind the prefix
`urn:uuid:`; letters of the digits and of the prefix may be of either case.
-/
import Lawbook.Identity
import Lawbook.Json.Token

namespace Lawbook

namespace GeneratorId

/-- The lengths of the groups of digits. -/
def groups : List Nat := [8, 4, 4, 4, 12]

/-- The number of the given hexadecimal digits, from a number read before them. -/
def hexValue? : Nat → List Char → Option Nat
  | n, [] => some n
  | n, c :: cs => do hexValue? (16 * n + (← Json.hexDigit? c)) cs

/-- The last `count` hexadecimal digits of a number. -/
def hexText (count n : Nat) : List Char :=
  (List.range count).reverse.map fun i => Nat.digitChar ((n >>> (4 * i)) % 16)

/-- Digits cut into groups of the given lengths, with hyphens between them. -/
def hyphenate : List Nat → List Char → List Char
  | [], cs => cs
  | [_], cs => cs
  | length :: lengths, cs => cs.take length ++ '-' :: hyphenate lengths (cs.drop length)

/-- The written form of an identity. -/
def text (id : GeneratorId) : String :=
  String.ofList (hyphenate groups (hexText 32 id.bits.toNat))

/-- The digits of text in groups of the given lengths. -/
def ungroup? : List Nat → List Char → Option (List Char)
  | [], [] => some []
  | [], _ :: _ => none
  | [length], cs => if cs.length = length then some cs else none
  | length :: lengths, cs => do
    match cs.drop length with
    | '-' :: rest => return cs.take length ++ (← ungroup? lengths rest)
    | _ => none

/-- The digits of an identity in any of its written forms. -/
def digits? (cs : List Char) : Option (List Char) :=
  if cs.length = 32 then some cs
  else if cs.length = 36 then ungroup? groups cs
  else if cs.length = 38 then
    match cs with
    | '\x7b' :: rest =>
      if rest.getLast? = some '\x7d' then ungroup? groups rest.dropLast else none
    | _ => none
  else if cs.length = 45 then
    if (cs.take 9).map Char.toLower = "urn:uuid:".toList then ungroup? groups (cs.drop 9) else none
  else none

/-- Reads an identity. -/
def ofText? (s : String) : Option GeneratorId := do
  let n ← hexValue? 0 (← digits? s.toList)
  return ⟨.ofNat 128 n⟩

end GeneratorId

end Lawbook
