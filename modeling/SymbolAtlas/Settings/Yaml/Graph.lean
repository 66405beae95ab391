import SymbolAtlas.Settings.Yaml.Scan
import SymbolAtlas.Settings.Yaml.Tag

/-!
# Nodes of settings files

The tokens of a file are put together to scalars, sequences and mappings. A file holds one document;
an entry, key or value that is left out is an empty plain scalar. An alias stands for the node that
was named before, and may stand inside of that very node. So nodes do not make a tree: they are
numbered, and refer to each other by their numbers.

A broken file may be found out before all its tokens were read. The tokens up to the break decide
first: only when a node needs a token that does not come is the break itself the error.
-/

namespace SymbolAtlas.Yaml

/-- The number of a node. -/
abbrev NodeId := Nat

/-- What a node is made of. -/
inductive Content where
  | scalar (text : String)
  | sequence (items : List NodeId)
  | mapping (fields : List (NodeId × NodeId))
  deriving DecidableEq, Repr

/-- A node as it is written. -/
structure Node where
  tag : Tag
  content : Content
  deriving DecidableEq, Repr

/-- What is left out. -/
def Node.empty : Node := ⟨.null, .scalar ""⟩

/-- The nodes of a file by their numbers. -/
abbrev Graph := Array Node

/-- Why no nodes can be put together. -/
inductive TreeError where
  | scan (e : ScanError)
  | unexpected (t : Token)
  /-- The version of the format is another one. -/
  | otherVersion (major : Nat)
  | repeatedVersion
  | repeatedHandle (handle : String)
  | unknownHandle (handle : String)
  | anotherDocument
  /-- Two nodes have the same name. -/
  | repeatedAnchor (name : String)
  | unknownAnchor (name : String)
  /-- Nodes stand too deep inside of each other. -/
  | tooDeep
  deriving DecidableEq, Repr

/-- What holds for a whole document. -/
structure Preamble where
  /-- Why the tokens end, if not with the end of the file. -/
  broken : Option ScanError
  /-- What the handles of tags stand for. -/
  handles : List (String × String)
  /-- More than the number of tokens in the file. -/
  size : Nat

/-- The tokens that are left, the nodes so far, and those that were named, latest first. -/
structure Reading where
  tokens : List Token
  nodes : Graph
  anchors : List (String × NodeId)

/-- Reads something off the front of the tokens. -/
abbrev Reader (α : Type) := StateT Reading (Except TreeError) α

namespace Preamble

/-- The handles that every document has. -/
def defaultHandles : List (String × String) := [("!", "!"), ("!!", Tag.space)]

/-- The next token; where there is none the break is the error. -/
def peek (d : Preamble) : Reader Token := do
  match (← get).tokens with
  | t :: _ => return t
  | [] => throw ((d.broken.map TreeError.scan).getD (.unexpected .streamEnd))

/-- Takes the next token. -/
def drop : Reader Unit := modify fun r => { r with tokens := r.tokens.tail }

/-- Fails because of the next token. -/
def refuse {α : Type} (t : Token) : Reader α := throw (.unexpected t)

/-- Adds a node. -/
def add (n : Node) : Reader NodeId := do
  let id := (← get).nodes.size
  modify fun r => { r with nodes := r.nodes.push n }
  return id

/-- Adds an empty scalar. -/
def addEmpty : Reader NodeId := add .empty

/-- Gives a node its parts. -/
def complete (id : NodeId) (content : Content) : Reader Unit :=
  modify fun r => { r with nodes := r.nodes.modify id fun n => { n with content := content } }

/-- An empty scalar if the next token is one of `stops`, and otherwise what `read` reads. -/
def unlessNext (d : Preamble) (stops : List Token) (read : Reader NodeId) : Reader NodeId := do
  if stops.contains (← d.peek) then addEmpty else read

/-- The value of a key, if the next token says that one comes. -/
def valueOr (d : Preamble) (stops : List Token) (read : Reader NodeId) : Reader NodeId := do
  if (← d.peek) = .value then
    drop
    d.unlessNext stops read
  else addEmpty

/-- The entries of a block list up to its end. -/
def blockEntries (d : Preamble) (read : Reader NodeId) (items : List NodeId) :
    (fuel : Nat) → Reader (List NodeId)
  | 0 => refuse .streamEnd
  | fuel + 1 => do
    match ← d.peek with
    | .blockEnd =>
      drop
      return items.reverse
    | .blockEntry =>
      drop
      let item ← d.unlessNext [.blockEntry, .blockEnd] read
      d.blockEntries read (item :: items) fuel
    | t => refuse t

/-- The entries of a list that stands no further in than the mapping around it. -/
def flushEntries (d : Preamble) (read : Reader NodeId) (items : List NodeId) :
    (fuel : Nat) → Reader (List NodeId)
  | 0 => refuse .streamEnd
  | fuel + 1 => do
    if (← d.peek) = .blockEntry then
      drop
      let item ← d.unlessNext [.blockEntry, .key, .value, .blockEnd] read
      d.flushEntries read (item :: items) fuel
    else return items.reverse

/-- The keys and values of a block mapping up to its end. -/
def blockFields (d : Preamble) (read : Reader NodeId) (fields : List (NodeId × NodeId)) :
    (fuel : Nat) → Reader (List (NodeId × NodeId))
  | 0 => refuse .streamEnd
  | fuel + 1 => do
    match ← d.peek with
    | .blockEnd =>
      drop
      return fields.reverse
    | .key =>
      drop
      let key ← d.unlessNext [.key, .value, .blockEnd] read
      let value ← d.valueOr [.key, .value, .blockEnd] read
      d.blockFields read ((key, value) :: fields) fuel
    | t => refuse t

/-- A comma, which every entry of a flow collection but the first needs. -/
def separator (d : Preamble) (first : Bool) : Reader Unit := do
  if first then return
  let t ← d.peek
  if t = .flowEntry then drop else refuse t

/-- A key and its value inside of a flow collection that ends with `close`. -/
def flowPair (d : Preamble) (close : Token) (read : Reader NodeId) : Reader (NodeId × NodeId) := do
  drop
  let key ← d.unlessNext [.value, .flowEntry, close] read
  let value ← d.valueOr [.flowEntry, close] read
  return (key, value)

/-- The entries of a flow list up to its end. A pair among them is a mapping of its own. -/
def flowItems (d : Preamble) (read : Reader NodeId) (items : List NodeId) :
    (fuel : Nat) → Reader (List NodeId)
  | 0 => refuse .streamEnd
  | fuel + 1 => do
    if (← d.peek) ≠ .flowSequenceEnd then d.separator items.isEmpty
    match ← d.peek with
    | .flowSequenceEnd =>
      drop
      return items.reverse
    | .key =>
      let pair ← d.flowPair .flowSequenceEnd read
      let item ← add ⟨.mapping, .mapping [pair]⟩
      d.flowItems read (item :: items) fuel
    | _ =>
      let item ← read
      d.flowItems read (item :: items) fuel

/-- The keys and values of a flow mapping up to its end. A key without a colon has an empty
value. -/
def flowFields (d : Preamble) (read : Reader NodeId) (fields : List (NodeId × NodeId)) :
    (fuel : Nat) → Reader (List (NodeId × NodeId))
  | 0 => refuse .streamEnd
  | fuel + 1 => do
    if (← d.peek) ≠ .flowMappingEnd then d.separator fields.isEmpty
    match ← d.peek with
    | .flowMappingEnd =>
      drop
      return fields.reverse
    | .key =>
      let pair ← d.flowPair .flowMappingEnd read
      d.flowFields read (pair :: fields) fuel
    | _ =>
      let key ← read
      let value ← addEmpty
      d.flowFields read ((key, value) :: fields) fuel

/-! ### Names and tags -/

/-- What stands before a node: a name and a tag, in either order. -/
structure Properties where
  anchor : Option String
  tag : Option String

/-- The full name of a tag. -/
def tagName (d : Preamble) (handle : Option String) (suffix : String) : Reader String :=
  match handle with
  | none => return suffix
  | some h =>
    match d.handles.lookup h with
    | some start => return start ++ suffix
    | none => throw (.unknownHandle h)

/-- The name that comes next, if one does. -/
def anchor? (d : Preamble) : Reader (Option String) := do
  match ← d.peek with
  | .anchor name =>
    drop
    return some name
  | _ => return none

/-- The tag that comes next, if one does. -/
def tag? (d : Preamble) : Reader (Option (Option String × String)) := do
  match ← d.peek with
  | .tag handle suffix =>
    drop
    return some (handle, suffix)
  | _ => return none

/-- What stands before a node. -/
def properties (d : Preamble) : Reader Properties := do
  let first ← d.anchor?
  let tag ← d.tag?
  let anchor ← if first.isNone && tag.isSome then d.anchor? else pure first
  let name ← tag.mapM fun t => d.tagName t.1 t.2
  return ⟨anchor, name⟩

/-- The node that was named. -/
def named (name : String) : Reader NodeId := do
  match (← get).anchors.lookup name with
  | some id => return id
  | none => throw (.unknownAnchor name)

/-- The tag of a scalar. Without a tag, quoted scalars are text; the tag `!` has a scalar read as
if it had no quotes. -/
def scalarTag (tag : Option String) (text : String) (plain : Bool) : Tag :=
  match tag with
  | some "!" => .ofPlain text
  | some name => .ofName name
  | none => if plain then .ofPlain text else .text

/-- The tag of a collection. -/
def collectionTag (tag : Option String) (usual : Tag) : Tag :=
  match tag with
  | some "!" | none => usual
  | some name => .ofName name

/-! ### Nodes -/

/-- Where a node stands, which decides what it may be. -/
inductive Place where
  /-- Inside of a flow collection: no block collections. -/
  | flow
  | block
  /-- A key or value of a block mapping: a list may stand no further in than the mapping. -/
  | field
  deriving DecidableEq, Repr

/-- Whether a token can begin a node at a place. -/
def begins (place : Place) : Token → Bool
  | .scalar .. | .flowSequence | .flowMapping => true
  | .blockSequence | .blockMapping => place != .flow
  | .blockEntry => place == .field
  | _ => false

/-- Adds a node under the name that it has, if it has one. -/
def addNamed (name : Option String) (n : Node) : Reader NodeId := do
  let id ← add n
  if let some name := name then
    modify fun r => { r with anchors := (name, id) :: r.anchors }
  return id

/-- A sequence, which is there before its items are. -/
def sequence (p : Properties) (items : Reader (List NodeId)) : Reader NodeId := do
  let id ← addNamed p.anchor ⟨collectionTag p.tag .sequence, .sequence []⟩
  complete id (.sequence (← items))
  return id

/-- A mapping, which is there before its fields are. -/
def mapping (p : Properties) (fields : Reader (List (NodeId × NodeId))) : Reader NodeId := do
  let id ← addNamed p.anchor ⟨collectionTag p.tag .mapping, .mapping []⟩
  complete id (.mapping (← fields))
  return id

/-- A node after what stands before it. Where nothing begins one it is an empty scalar. -/
def content (d : Preamble) (read : Place → Reader NodeId) (place : Place) (p : Properties) :
    Reader NodeId := do
  let t ← d.peek
  if begins place t then
    match t with
    | .scalar text plain =>
      drop
      addNamed p.anchor ⟨scalarTag p.tag text plain, .scalar text⟩
    | .flowSequence =>
      drop
      sequence p (d.flowItems (read .flow) [] d.size)
    | .flowMapping =>
      drop
      mapping p (d.flowFields (read .flow) [] d.size)
    | .blockSequence =>
      drop
      sequence p (d.blockEntries (read .block) [] d.size)
    | .blockMapping =>
      drop
      mapping p (d.blockFields (read .field) [] d.size)
    | _ => sequence p (d.flushEntries (read .block) [] d.size)
  else addNamed p.anchor ⟨scalarTag p.tag "" true, .scalar ""⟩

/-- How deep nodes may stand inside of each other. -/
def deepest : Nat := 490

/-- One node, in which others may stand up to a depth. -/
def node (d : Preamble) : (depth : Nat) → Place → Reader NodeId
  | 0, _ => throw .tooDeep
  | depth + 1, place => do
    match ← d.peek with
    | .aliasOf name =>
      drop
      named name
    | _ =>
      let p ← d.properties
      let t ← d.peek
      if !begins place t && p.tag.isNone && p.anchor.isNone then refuse t
      if let some name := p.anchor then
        if ((← get).anchors.lookup name).isSome then throw (.repeatedAnchor name)
      d.content (d.node depth) place p

end Preamble

/-! ### Documents -/

/-- Adds what a directive says to the handles of a document, given whether the version came
before. -/
def directive (t : Token) (handles : List (String × String)) (versioned : Bool) :
    Except TreeError (List (String × String) × Bool) :=
  match t with
  | .version major =>
    if versioned then .error .repeatedVersion
    else if major ≠ 1 then .error (.otherVersion major)
    else .ok (handles, true)
  | .tagPrefix handle start =>
    if (handles.lookup handle).isSome then .error (.repeatedHandle handle)
    else .ok ((handle, start) :: handles, versioned)
  | _ => .ok (handles, versioned)

/-- Whether a token is a directive. -/
def Token.isDirective : Token → Bool
  | .version _ | .tagPrefix .. | .reserved => true
  | _ => false

/-- The directives before a document. -/
def directives (d : Preamble) (handles : List (String × String)) (versioned : Bool) :
    (fuel : Nat) → Reader Preamble
  | 0 => Preamble.refuse .streamEnd
  | fuel + 1 => do
    let t ← d.peek
    if t.isDirective then
      Preamble.drop
      let (handles, versioned) ← directive t handles versioned
      directives d handles versioned fuel
    else return { d with handles := handles ++ Preamble.defaultHandles }

/-- The directives before a document, and the marker with which it starts. -/
def documentStart (d : Preamble) : Reader Preamble := do
  let d ← directives d [] false d.size
  let t ← d.peek
  if t = .documentStart then
    Preamble.drop
    return d
  else Preamble.refuse t

/-- Makes sure that no other document follows. -/
def noMore (d : Preamble) : Reader Unit := do
  modify fun r => { r with tokens := r.tokens.dropWhile (· == .documentEnd) }
  if (← d.peek) ≠ .streamEnd then
    let _ ← documentStart d
    throw .anotherDocument

/-- The document of a file, if it has one. -/
def document (d : Preamble) : Reader (Option NodeId) := do
  let t ← d.peek
  if t = .streamEnd then return none
  let root ←
    if t = .documentStart || t.isDirective then do
      let d ← documentStart d
      let t ← d.peek
      if t.isDirective || [.documentStart, .documentEnd, .streamEnd].contains t then
        Preamble.addEmpty
      else d.node Preamble.deepest .block
    else d.node Preamble.deepest .block
  noMore d
  return some root

/-- The nodes that the tokens of a file make, and which of them is the document, if there is one. -/
def Scan.document (s : Scan) : Except TreeError (Graph × Option NodeId) :=
  let d : Preamble := ⟨s.broken, Preamble.defaultHandles, s.tokens.length + 1⟩
  match (Yaml.document d).run ⟨s.tokens, #[], []⟩ with
  | .error e => .error e
  | .ok (root, r) => .ok (r.nodes, root)

end SymbolAtlas.Yaml
