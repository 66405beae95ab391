import SymbolAtlas.Settings.Yaml.Graph
import SymbolAtlas.Settings.Yaml.Scalar

/-!
# What nodes stand for

Scalars have values at once. A collection is worked out later: first it is only known to be one, and
its parts come when all that was begun before it is done. So of several errors, one in an outer
collection comes before one in a collection inside of it, and a node may well be a part of itself.

The key `<<` takes in the fields of another mapping, or of several, in front of the fields around
it; of several mappings the first counts most. This happens to the nodes themselves, when a mapping
is worked out, and the keys `=` become texts with it. Where a scalar is wanted, a mapping stands for
the value of its key `=`.

Of a key that is written twice the last value counts, at the place of the first.
-/

namespace SymbolAtlas.Yaml

/-! ### Parts -/

/-- What a node stands for, with other nodes for its parts. -/
inductive Part where
  | scalar (s : Scalar)
  | list (items : List NodeId)
  | map (fields : List (Scalar × NodeId))
  | set (keys : List Scalar)
  | pairs (entries : List (NodeId × NodeId))
  deriving DecidableEq, Repr

/-- How far the nodes of a file have been worked out. -/
structure Building where
  nodes : Graph
  /-- What nodes stand for, as far as it is known. -/
  parts : Array (Option Part)
  /-- The collections that were begun, latest first. -/
  waiting : List NodeId
  /-- More than the number of fields of all mappings as they are written. -/
  steps : Nat

/-- What works on the nodes of a file. -/
abbrev Build (α : Type) := StateT Building (Except ValueError) α

namespace Build

/-- A node. -/
def node (id : NodeId) : Build Node := return (← get).nodes.getD id .empty

/-- What a node stands for from now on. -/
def settle (id : NodeId) (p : Part) : Build Unit :=
  modify fun b => { b with parts := b.parts.setIfInBounds id (some p) }

/-- Whether a key has a tag. -/
def hasTag (tag : Tag) (id : NodeId) : Build Bool := return (← node id).tag = tag

/-- The text of a scalar, or of the scalar that a mapping gives for the key `=`. -/
def scalarText : (fuel : Nat) → NodeId → Build String
  | 0, _ => throw .cyclic
  | fuel + 1, id => do
    match (← node id).content with
    | .scalar text => return text
    | .sequence _ => throw .noMeaning
    | .mapping fields =>
      match ← fields.findM? fun f => hasTag .default f.1 with
      | some f => scalarText fuel f.2
      | none => throw .noMeaning

/-- The part that a collection with a tag is before it is worked out. -/
def begun? : Tag → Option Part
  | .sequence => some (.list [])
  | .mapping => some (.map [])
  | .set => some (.set [])
  | .pairs => some (.pairs [])
  | _ => none

/-- Begins to work out a node. -/
def begin (id : NodeId) : Build Part := do
  let n ← node id
  match begun? n.tag with
  | some p =>
    settle id p
    modify fun b => { b with waiting := id :: b.waiting }
    return p
  | none =>
    if !n.tag.isScalar then throw .noMeaning
    let text ← scalarText ((← get).nodes.size + 1) id
    if n.tag = .moment && n.content ≠ .scalar text then throw .compositeMoment
    let s ← scalarOf n.tag text
    settle id (.scalar s)
    return .scalar s

/-- What a node stands for, as far as it is known. -/
def part (id : NodeId) : Build Part := do
  match (← get).parts.getD id none with
  | some p => return p
  | none => begin id

/-! ### Merging -/

/-- Gives a mapping other fields. -/
def setFields (id : NodeId) (fields : List (NodeId × NodeId)) : Build Unit :=
  modify fun b =>
    { b with nodes := b.nodes.modify id fun n => { n with content := .mapping fields } }

/-- The fields of a mapping. -/
def fieldsOf (id : NodeId) : Build (List (NodeId × NodeId)) := do
  match (← node id).content with
  | .mapping fields => return fields
  | _ => return []

/-- The first field that merges, and the others. -/
def splitMerge (before : List (NodeId × NodeId)) :
    List (NodeId × NodeId) → Build (Option (NodeId × List (NodeId × NodeId)))
  | [] => return none
  | f :: rest => do
    if ← hasTag .merge f.1 then return some (f.2, before.reverse ++ rest)
    else splitMerge (f :: before) rest

/-- The fields that a merged value brings along, where `flatten` merges into a mapping what it
merges itself. Of several mappings the last comes first, so that the first counts most. -/
def brought (flatten : NodeId → Build Unit) (id : NodeId) : Build (List (NodeId × NodeId)) := do
  match (← node id).content with
  | .mapping _ =>
    flatten id
    fieldsOf id
  | .sequence items =>
    items.foldlM (fun later item => do
      match (← node item).content with
      | .mapping _ =>
        flatten item
        return (← fieldsOf item) ++ later
      | _ => throw .notMergeable) []
  | .scalar _ => throw .notMergeable

/-- Merges one after the other what a mapping merges, with `merged` holding what it has merged so
far. A key that merges goes before its value is looked at. -/
def merges (flatten : NodeId → Build Unit) (id : NodeId) (merged : List (NodeId × NodeId)) :
    (fuel : Nat) → Build (List (NodeId × NodeId))
  | 0 => return merged
  | fuel + 1 => do
    match ← splitMerge [] (← fieldsOf id) with
    | none => return merged
    | some (value, rest) =>
      setFields id rest
      merges flatten id (merged ++ (← brought flatten value)) fuel

/-- Merges into a mapping what it merges, and makes its keys `=` texts. There are no more steps from
mapping to mapping than keys that merge. -/
def flatten : (fuel : Nat) → NodeId → Build Unit
  | 0, _ => return
  | fuel + 1, id => do
    let merged ← merges (flatten fuel) id [] (fuel + 1)
    let fields := merged ++ (← fieldsOf id)
    setFields id fields
    for (k, _) in fields do
      if ← hasTag .default k then
        modify fun b => { b with nodes := b.nodes.modify k fun n => { n with tag := .text } }

/-! ### Collections -/

/-- A key, which has to be a scalar. -/
def key (id : NodeId) : Build Scalar := do
  match ← part id with
  | .scalar s => return s
  | _ => throw .compositeKey

/-- The fields of a mapping. -/
def mapFields (id : NodeId) : Build (List (Scalar × NodeId)) := do
  match (← node id).content with
  | .mapping _ =>
    flatten (← get).steps id
    (← fieldsOf id).foldlM (fun fields (k, v) => do
      let k ← key k
      let _ ← part v
      return putField k v fields) []
  | _ => throw .noMeaning

/-- The items of a sequence. -/
def items (id : NodeId) : Build (List NodeId) := do
  match (← node id).content with
  | .sequence items => return items
  | _ => throw .noMeaning

/-- A key and a value of a list of pairs, which are the only field of a mapping. -/
def entry (id : NodeId) : Build (NodeId × NodeId) := do
  match (← node id).content with
  | .mapping [(k, v)] =>
    let _ ← part k
    let _ ← part v
    return (k, v)
  | _ => throw .noMeaning

/-- Works out the parts of a collection that was begun. -/
def finish (id : NodeId) : Build Unit := do
  match (← node id).tag with
  | .sequence =>
    let items ← items id
    for item in items do
      let _ ← part item
    settle id (.list items)
  | .mapping => settle id (.map (← mapFields id))
  | .set => settle id (.set ((← mapFields id).map Prod.fst))
  | .pairs => settle id (.pairs (← (← items id).mapM entry))
  | _ => return

/-- Works out all collections, in the order in which they were begun. In each round those are
finished that were begun in the round before. -/
def rounds : (fuel : Nat) → Build Unit
  | 0 => return
  | fuel + 1 => do
    let waiting := (← get).waiting.reverse
    if waiting = [] then return
    modify fun b => { b with waiting := [] }
    waiting.forM finish
    rounds fuel

/-- Works out a node with all its parts. -/
def whole (id : NodeId) : Build Unit := do
  let _ ← part id
  rounds ((← get).nodes.size + 1)

end Build

/-- How many fields a node has. -/
def Node.fieldCount (n : Node) : Nat :=
  match n.content with
  | .mapping fields => fields.length
  | _ => 0

/-- What the nodes of a file stand for that belong to the node `root`. -/
def Graph.parts (g : Graph) (root : NodeId) : Except ValueError (Array (Option Part)) :=
  let steps := g.foldl (fun n node => n + node.fieldCount) 1
  match (Build.whole root).run ⟨g, Array.replicate g.size none, [], steps⟩ with
  | .error e => .error e
  | .ok ((), b) => .ok b.parts

/-! ### Values -/

/-- The value of a node inside of the nodes `path`. A node that is inside of itself is a cycle. -/
def valueOf (parts : Array (Option Part)) (path : List NodeId) : (fuel : Nat) → NodeId → Value
  | 0, _ => .cycle 0
  | fuel + 1, id =>
    if path.contains id then .cycle (path.idxOf id)
    else
      let inner (i : NodeId) := valueOf parts (id :: path) fuel i
      match parts.getD id none with
      | some (.scalar s) => .scalar s
      | some (.list items) => .list (items.map inner)
      | some (.map fields) => .map (fields.map fun (k, v) => (k, inner v))
      | some (.set keys) => .set keys
      | some (.pairs entries) => .pairs (entries.map fun (k, v) => (inner k, inner v))
      | none => .scalar .null

end SymbolAtlas.Yaml
