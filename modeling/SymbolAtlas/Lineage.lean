import SymbolAtlas.Entries
import SymbolAtlas.Symbol

/-!
# Symbol ids over the versions of a file

The natural id of a declaration names its file, its own name, its container and its line. From
one version to the next ids are carried over:

* a declaration with the kind, container, name and line of a previous symbol keeps its id;
* a declaration that stands, under a new name, where a previous symbol of its kind and container
  stood keeps that id, provided the old name is gone and the new one was not there before;
* any other declaration gets its natural id, with `#2`, `#3`, … added when that id is taken.

An id whose symbol is gone is *retired* and stays taken. Only the most recent retirements are
remembered, and only as many suffix counters.
-/

namespace SymbolAtlas

/-- The id of a declaration that carries none over. -/
def naturalId (fileId name : String) (line : Int) (container : Option String) : String :=
  let key := match container with
    | none => name
    | some c => name ++ "@" ++ c
  fileId ++ "::" ++ key ++ "@" ++ toString line

/-- The name that stands for a whole file in ids. -/
def fileKey : String := "<file>"

/-- The id of the symbol that stands for a file. -/
def fileSymbolId (fileId : String) : String := naturalId fileId fileKey 1 none

/-- The `n`th variant of an id. -/
def withSuffix (id : String) (n : Nat) : String := id ++ "#" ++ toString n

/-- The first number from `n` on whose variant of `id` is not in use. -/
def freeSuffix (inUse : String → Bool) (id : String) : (fuel n : Nat) → Nat
  | 0, n => n
  | fuel + 1, n => if inUse (withSuffix id n) then freeSuffix inUse id fuel (n + 1) else n

/-- What is remembered about the ids of one file. -/
structure Lineage where
  fileId : String
  /-- How many retired ids and how many suffix counters are remembered. If this is negative no id
  can be retired. -/
  capacity : Int
  /-- The retired ids, the oldest retirement first. -/
  retired : List String
  /-- The next suffix to try for an id, the least recently used first. -/
  suffixes : Entries String Nat
  deriving DecidableEq, Repr

/-- Why ids could not be assigned. -/
inductive AssignError where
  /-- A declaration's container index points at no declaration before it. -/
  | missingContainer (index : Nat)
  /-- An id has to be retired and cannot be. -/
  | noRoom
  deriving DecidableEq, Repr

/-- The wording of an error. -/
def AssignError.message : AssignError → String
  | .missingContainer _ => "list index out of range"
  | .noRoom => ""

namespace Lineage

/-- How many retired ids a lineage remembers unless told otherwise. -/
def defaultCapacity : Int := 4096

/-- A lineage without a past. -/
def new (fileId : String) (capacity : Int) : Lineage := ⟨fileId, capacity, [], {}⟩

/-- The suffix counters with the one of `id` set to `n`; the least recently used one goes when
there are too many. -/
def noteSuffix (l : Lineage) (id : String) (n : Nat) : Lineage :=
  let noted := l.suffixes.putLast id n
  { l with suffixes := if l.capacity < noted.size then noted.dropOldest 1 else noted }

/-- An id that is neither taken nor retired: `id` itself, or its first free variant. -/
def unused (l : Lineage) (taken : List String) (id : String) : String × Lineage :=
  let inUse := fun x => taken.contains x || l.retired.contains x
  if inUse id then
    let n := freeSuffix inUse id (taken.length + l.retired.length) ((l.suffixes.get? id).getD 2)
    (withSuffix id n, l.noteSuffix id (n + 1))
  else (id, l)

/-- Retires an id as the most recent one, forgetting the oldest beyond the capacity together
with their suffix counters. -/
def retire (l : Lineage) (id : String) : Lineage :=
  let retired := l.retired.filter (· ≠ id) ++ [id]
  let excess := retired.length - l.capacity.toNat
  { l with
    retired := retired.drop excess
    suffixes := (retired.take excess).foldl Entries.erase l.suffixes }

/-- The last of the symbols that has a property. -/
def lastWith (symbols : List Symbol) (p : Symbol → Bool) : Option Symbol :=
  symbols.reverse.find? p

/-- How far ids have been assigned in one pass. -/
structure Pass where
  lineage : Lineage
  /-- The ids that may not be handed out as new ones. -/
  taken : List String
  /-- The previous ids carried over so far. -/
  consumed : List String
  /-- The ids assigned so far, one per declaration. -/
  ids : List String

/-- The previous symbol that a declaration continues. -/
def continued (previous : List Symbol) (declarations : List Declaration) (consumed : List String)
    (d : Declaration) (container : Option String) : Option Symbol :=
  let free := fun s : Symbol => !consumed.contains s.id
  let place := fun s : Symbol => s.kind = d.kind && s.container = container && s.line = d.line
  match (lastWith previous fun s => place s && s.name = d.name).filter free with
  | some s => some s
  | none =>
    ((lastWith previous place).filter free).filter fun s =>
      !(previous.any fun p => p.kind = d.kind && p.name = d.name) &&
        !(declarations.any fun n => n.kind = s.kind && n.name = s.name)

/-- The id assigned to a declaration's container. -/
def containerId (ids : List String) (d : Declaration) : Except AssignError (Option String) :=
  match d.container with
  | none => .ok none
  | some i =>
    match ids[i]? with
    | none => .error (.missingContainer i)
    | some id => .ok (some id)

/-- Assigns the id of one declaration, the id of whose container is known. -/
def Pass.assignOne (previous : List Symbol) (declarations : List Declaration) (p : Pass)
    (d : Declaration) (container : Option String) : Pass :=
  match continued previous declarations p.consumed d container with
  | some s => { p with consumed := s.id :: p.consumed, ids := p.ids ++ [s.id] }
  | none =>
    let (id, lineage) :=
      p.lineage.unused p.taken (naturalId p.lineage.fileId d.name d.line container)
    { p with lineage := lineage, taken := id :: p.taken, ids := p.ids ++ [id] }

/-- Assigns the ids of the declarations `rest`, up to the first whose container has no id. -/
def Pass.assignAll (previous : List Symbol) (declarations : List Declaration) (p : Pass) :
    List Declaration → Pass × Option AssignError
  | [] => (p, none)
  | d :: rest =>
    match containerId p.ids d with
    | .error e => (p, some e)
    | .ok container =>
      (p.assignOne previous declarations d container).assignAll previous declarations rest

/-- Retires ids one after the other. -/
def retireAll (l : Lineage) (gone : List String) : Except AssignError Unit × Lineage :=
  match gone with
  | [] => (.ok (), l)
  | id :: _ =>
    if l.capacity < 0 then (.error .noRoom, l.retire id) else (.ok (), gone.foldl retire l)

/-- One id per declaration, carried over from the previous snapshot where possible. Previous ids
that are not carried over are retired. When a container is missing nothing is retired, but
suffixes handed out before stay used. -/
def assign (l : Lineage) (declarations : List Declaration) (previous : Option Snapshot) :
    Except AssignError (List String) × Lineage :=
  let symbols := (previous.map Snapshot.declared).getD []
  let start : Pass := ⟨l, symbols.map Symbol.id, [], []⟩
  match start.assignAll symbols declarations declarations with
  | (p, some e) => (.error e, p.lineage)
  | (p, none) =>
    let gone := (symbols.map Symbol.id).filter fun id => !p.consumed.contains id
    let (retired, lineage) := p.lineage.retireAll gone
    (retired.map fun () => p.ids, lineage)

end Lineage

end SymbolAtlas
