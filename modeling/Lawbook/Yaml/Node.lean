/-
Lawbook/Yaml/Node.lean

Nodes: the structure of a YAML document before its scalars are given a meaning.

Keys of maps are nodes too, but only scalars can be keys of a document, whatever they would mean
as values: a key is its text.

* `ofTokens?` : the node of the tokens of a text with one document;
* `depth` : how deeply lists and maps are nested, which has a limit;
* `toDocument?` : the document of a node.
-/
import Lawbook.Yaml.Scalar
import Lawbook.Yaml.Token

namespace Lawbook.Yaml

/-- A scalar, or a list or map of nodes. -/
inductive Node where
  | scalar (content : String) (isPlain : Bool)
  | list (items : List Node)
  | map (entries : List (Node × Node))

namespace Node

/-- The node that is not there. -/
def missing : Node := scalar "" true

/-! ### From tokens -/

/-- Whether what follows a dash is another item or the end of the list. -/
def endsItem : List Token → Bool
  | .dash :: _ => true
  | .blockEnd :: _ => true
  | _ => false

/-- Whether what follows the dash of a list that is not indented is the end of the item. -/
def endsBareItem : List Token → Bool
  | .dash :: _ => true
  | .key :: _ => true
  | .value :: _ => true
  | .blockEnd :: _ => true
  | _ => false

/-- Whether what follows a mark in a block map is the end of a key or a value. -/
def endsBlockPart : List Token → Bool
  | .key :: _ => true
  | .value :: _ => true
  | .blockEnd :: _ => true
  | _ => false

/-- Whether what follows a mark between brackets is the end of a value. -/
def endsFlowPart (close : Token) : List Token → Bool
  | .comma :: _ => true
  | t :: _ => t = close
  | [] => false

/-- Whether what follows the mark of a key between brackets is no key. -/
def endsFlowKey (close : Token) : List Token → Bool
  | .value :: _ => true
  | ts => endsFlowPart close ts

mutual

/-- Reads a node.  Block collections stand outside of brackets, and a list that is not indented
stands in a map. -/
def read : Nat → Bool → Bool → List Token → Option (Node × List Token)
  | 0, _, _, _ => none
  | n + 1, inBlock, inMap, ts =>
    match ts with
    | .scalar content isPlain :: rest => some (scalar content isPlain, rest)
    | .openList :: rest => readFlowList n true [] rest
    | .openMap :: rest => readFlowMap n true [] rest
    | .dash :: _ => if inMap then readBareList n [] ts else none
    | .blockList :: rest => if inBlock then readBlockList n [] rest else none
    | .blockMap :: rest => if inBlock then readBlockMap n [] rest else none
    | _ => none

/-- Reads the items of a block list.  The items so far are in reverse. -/
def readBlockList : Nat → List Node → List Token → Option (Node × List Token)
  | 0, _, _ => none
  | n + 1, items, ts =>
    match ts with
    | .blockEnd :: rest => some (list items.reverse, rest)
    | .dash :: rest =>
      if endsItem rest then readBlockList n (missing :: items) rest
      else do
        let (item, rest) ← read n true false rest
        readBlockList n (item :: items) rest
    | _ => none

/-- Reads the items of a list that is not indented more than the map it stands in. -/
def readBareList : Nat → List Node → List Token → Option (Node × List Token)
  | 0, _, _ => none
  | n + 1, items, ts =>
    match ts with
    | .dash :: rest =>
      if endsBareItem rest then readBareList n (missing :: items) rest
      else do
        let (item, rest) ← read n true false rest
        readBareList n (item :: items) rest
    | _ => some (list items.reverse, ts)

/-- Reads the entries of a block map. -/
def readBlockMap : Nat → List (Node × Node) → List Token → Option (Node × List Token)
  | 0, _, _ => none
  | n + 1, entries, ts =>
    match ts with
    | .blockEnd :: rest => some (map entries.reverse, rest)
    | .key :: rest =>
      if endsBlockPart rest then readBlockValue n entries missing rest
      else do
        let (key, rest) ← read n true true rest
        readBlockValue n entries key rest
    | _ => none

/-- Reads the value of a key, and the entries behind it. -/
def readBlockValue :
    Nat → List (Node × Node) → Node → List Token → Option (Node × List Token)
  | 0, _, _, _ => none
  | n + 1, entries, key, ts =>
    match ts with
    | .value :: rest =>
      if endsBlockPart rest then readBlockMap n ((key, missing) :: entries) rest
      else do
        let (value, rest) ← read n true true rest
        readBlockMap n ((key, value) :: entries) rest
    | _ => readBlockMap n ((key, missing) :: entries) ts

/-- Reads the items of a flow list; the first one has no comma before it.  An item may be a map
of one entry. -/
def readFlowList : Nat → Bool → List Node → List Token → Option (Node × List Token)
  | 0, _, _, _ => none
  | n + 1, first, items, ts =>
    match first, ts with
    | _, .closeList :: rest => some (list items.reverse, rest)
    | false, .comma :: .closeList :: rest => some (list items.reverse, rest)
    | false, .comma :: rest => readFlowItem n items rest
    | false, _ => none
    | true, ts => readFlowItem n items ts

/-- Reads one item of a flow list, and the items behind it.  A key that is missing takes the place
of what follows its mark, which is passed over. -/
def readFlowItem : Nat → List Node → List Token → Option (Node × List Token)
  | 0, _, _ => none
  | n + 1, items, ts =>
    match ts with
    | .key :: rest => do
      let (key, rest) ←
        if endsFlowKey .closeList rest then some (missing, rest.drop 1) else read n false false rest
      let (value, rest) ← readFlowValue n .closeList rest
      readFlowList n false (map [(key, value)] :: items) rest
    | ts => do
      let (item, rest) ← read n false false ts
      readFlowList n false (item :: items) rest

/-- Reads the entries of a flow map; the first one has no comma before it. -/
def readFlowMap :
    Nat → Bool → List (Node × Node) → List Token → Option (Node × List Token)
  | 0, _, _, _ => none
  | n + 1, first, entries, ts =>
    match first, ts with
    | _, .closeMap :: rest => some (map entries.reverse, rest)
    | false, .comma :: .closeMap :: rest => some (map entries.reverse, rest)
    | false, .comma :: rest => readFlowEntry n entries rest
    | false, _ => none
    | true, ts => readFlowEntry n entries ts

/-- Reads one entry of a flow map, and the entries behind it. -/
def readFlowEntry : Nat → List (Node × Node) → List Token → Option (Node × List Token)
  | 0, _, _ => none
  | n + 1, entries, ts =>
    match ts with
    | .key :: rest => do
      let (key, rest) ←
        if endsFlowKey .closeMap rest then some (missing, rest) else read n false false rest
      let (value, rest) ← readFlowValue n .closeMap rest
      readFlowMap n false ((key, value) :: entries) rest
    | ts => do
      let (key, rest) ← read n false false ts
      readFlowMap n false ((key, missing) :: entries) rest

/-- Reads the value behind a key between brackets, if there is one. -/
def readFlowValue : Nat → Token → List Token → Option (Node × List Token)
  | 0, _, _ => none
  | n + 1, close, ts =>
    match ts with
    | .value :: rest =>
      if endsFlowPart close rest then some (missing, rest) else read n false false rest
    | ts => some (missing, ts)

end

/-- Whether tokens are marks behind a document and nothing else. -/
def isEnd (ts : List Token) : Bool :=
  ts.all (· = .documentEnd)

/-- Reads a document, from behind its start. -/
def readContent (ts : List Token) : Option Node := do
  let (node, rest) ← read (4 * ts.length + 8) true false ts
  if isEnd rest then some node else none

/-- The node of the tokens of a text with at most one document. -/
def ofTokens? : List Token → Option Node
  | [] => some missing
  -- nothing between the marks of a document is an absent node
  | .documentStart :: ts => if isEnd ts then some missing else readContent ts
  | ts => readContent ts

/-! ### Depth -/

mutual

/-- How deeply lists and maps are nested. -/
def depth : Node → Nat
  | scalar _ _ => 0
  | list items => depthOfItems items + 1
  | map entries => depthOfEntries entries + 1

/-- The depth of the deepest item. -/
def depthOfItems : List Node → Nat
  | [] => 0
  | item :: items => max item.depth (depthOfItems items)

/-- The depth of the deepest key or value. -/
def depthOfEntries : List (Node × Node) → Nat
  | [] => 0
  | (key, value) :: entries => max (max key.depth value.depth) (depthOfEntries entries)

end

/-! ### To documents -/

mutual

/-- The document of a node. -/
def toDocument? : Node → Option Document
  | scalar content true => plainValue? content
  | scalar content false => some (.text content)
  | list items => do return .list (← itemsToDocuments? items)
  | map entries => do return .object (← entriesToDocuments? [] entries)

/-- The documents of items. -/
def itemsToDocuments? : List Node → Option (List Document)
  | [] => some []
  | item :: items => do return (← item.toDocument?) :: (← itemsToDocuments? items)

/-- The entries of an object, behind those before them.  A key that comes again takes its last
value. -/
def entriesToDocuments? (before : List (String × Document)) :
    List (Node × Node) → Option (List (String × Document))
  | [] => some before
  | (scalar key _, value) :: entries => do
    entriesToDocuments? (Document.assign key (← value.toDocument?) before) entries
  | _ :: _ => none

end

end Node

/-- The deepest nesting of lists and maps. -/
def maxDepth : Nat := 128

/-- The document that a text holds; a text without a document holds null. -/
def read? (s : String) : Option Document := do
  let node ← Node.ofTokens? (← tokens? s.toList)
  if node.depth ≤ maxDepth then node.toDocument? else none

end Lawbook.Yaml
