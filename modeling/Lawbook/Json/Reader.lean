/-
Lawbook/Json/Reader.lean

Reading JSON documents.

The tokens are taken one after the other, with a stack of the lists and objects that are still
open.  Lists and objects do not nest deeper than `maxDepth`.  A key that comes again takes the
last of its values.

* `read?` : the document that a text holds, if it holds exactly one.
-/
import Lawbook.Json.Token

namespace Lawbook.Json

/-- The deepest nesting of lists and objects. -/
def maxDepth : Nat := 127

/-- A list or an object that is open, with what it holds so far. -/
inductive Frame where
  /-- The items, in reverse. -/
  | list (items : List Document)
  /-- The entries, and the key whose value is being read. -/
  | entry (entries : List (String × Document)) (key : String)

/-- What has been read, and what may come next. -/
inductive Progress where
  /-- A value must come. -/
  | expectValue (frames : List Frame)
  /-- A list was opened. -/
  | inList (frames : List Frame)
  /-- An object was opened. -/
  | inObject (frames : List Frame)
  /-- A key must come. -/
  | expectKey (entries : List (String × Document)) (frames : List Frame)
  /-- A colon must come. -/
  | expectColon (entries : List (String × Document)) (key : String) (frames : List Frame)
  /-- A value is complete. -/
  | complete (value : Document) (frames : List Frame)

namespace Progress

/-- Takes the first token of a value. -/
def beginValue (frames : List Frame) : Token → Option Progress
  | .atom value => some (.complete value frames)
  | .text s => some (.complete (.text s) frames)
  | .openList => if frames.length < maxDepth then some (.inList frames) else none
  | .openObject => if frames.length < maxDepth then some (.inObject frames) else none
  | _ => none

/-- Takes the token behind a value in an open list or object. -/
def continueFrame (value : Document) : List Frame → Token → Option Progress
  | .list items :: outer, .comma => some (.expectValue (.list (value :: items) :: outer))
  | .list items :: outer, .closeList => some (.complete (.list (value :: items).reverse) outer)
  | .entry entries key :: outer, .comma =>
    some (.expectKey (Document.assign key value entries) outer)
  | .entry entries key :: outer, .closeObject =>
    some (.complete (.object (Document.assign key value entries)) outer)
  | _, _ => none

/-- Takes one token. -/
def step : Progress → Token → Option Progress
  | .expectValue frames, token => beginValue frames token
  | .inList frames, .closeList => some (.complete (.list []) frames)
  | .inList frames, token => beginValue (.list [] :: frames) token
  | .inObject frames, .closeObject => some (.complete (.object []) frames)
  | .inObject frames, .text key => some (.expectColon [] key frames)
  | .expectKey entries frames, .text key => some (.expectColon entries key frames)
  | .expectColon entries key frames, .colon => some (.expectValue (.entry entries key :: frames))
  | .complete value frames, token => continueFrame value frames token
  | _, _ => none

/-- The document when there are no more tokens. -/
def finish : Progress → Option Document
  | .complete value [] => some value
  | _ => none

end Progress

/-- The document that a text holds. -/
def read? (s : String) : Option Document := do
  let tokens ← tokens? s.toList
  (← tokens.foldlM Progress.step (.expectValue [])).finish

end Lawbook.Json
