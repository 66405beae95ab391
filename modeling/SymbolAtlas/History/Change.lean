import SymbolAtlas.Entries
import SymbolAtlas.Symbol

/-!
# Changes between snapshots

Two snapshots of a file are compared by the names of their ids. An id may occur more than once in
a snapshot: its first place and its last name count. Removals come first, in the order of the
earlier snapshot; additions and renamings follow in the order of the later one.
-/

namespace SymbolAtlas

/-- One difference between two snapshots. -/
inductive Change where
  | removed (id name : String)
  | added (id name : String)
  | renamed (id before after : String)
  deriving DecidableEq, Repr

namespace Change

/-- The id of the symbol that changed. -/
def symbolId : Change → String
  | .removed id _ => id
  | .added id _ => id
  | .renamed id _ _ => id

/-- The word for what happened. -/
def label : Change → String
  | .removed _ _ => "symbol_removed"
  | .added _ _ => "symbol_added"
  | .renamed _ _ _ => "symbol_changed"

/-- A change in one line of text. -/
def summary : Change → String
  | .removed _ name => "Removed symbol " ++ name
  | .added _ name => "Added symbol " ++ name
  | .renamed _ before after => "Renamed symbol " ++ before ++ " -> " ++ after

end Change

/-- The name of each id of a snapshot. -/
def Snapshot.names (s : Snapshot) : Entries String String :=
  .ofList (s.symbols.map fun x => (x.id, x.name))

/-- What has to be done to the names `before` to get the names `after`. -/
def changesBetween (before after : Entries String String) : List Change :=
  (before.toList.filterMap fun e => if after.has e.1 then none else some (.removed e.1 e.2)) ++
    after.toList.filterMap fun e =>
      match before.get? e.1 with
      | none => some (.added e.1 e.2)
      | some name => if name = e.2 then none else some (.renamed e.1 name e.2)

/-- The changes from one snapshot to another. -/
def Snapshot.changesTo (before after : Snapshot) : List Change :=
  changesBetween before.names after.names

end SymbolAtlas
