import SymbolAtlas.Settings.Yaml.Build

/-!
# Reading settings files

A settings file is a mapping. A file that holds something else, or nothing, counts as the empty
mapping.
-/

namespace SymbolAtlas.Yaml

/-- Why a file cannot be read. -/
inductive ReadError where
  | source (e : SourceError)
  | tree (e : TreeError)
  | value (e : ValueError)
  deriving DecidableEq, Repr

/-- The mapping that a node is, or none. -/
def fieldsOf (parts : Array (Option Part)) (root : NodeId) : Fields :=
  match valueOf parts [] (parts.size + 1) root with
  | .map fields => fields
  | _ => []

/-- The mapping that a file holds. -/
def readFields (d : Decoded) : Except ReadError Fields :=
  match Source.ofDecoded d with
  | .error e => .error (.source e)
  | .ok source =>
    match (Scan.ofSource source).document with
    | .error (.scan (.source e)) => .error (.source e)
    | .error e => .error (.tree e)
    | .ok (_, none) => .ok []
    | .ok (nodes, some root) =>
      match nodes.parts root with
      | .error e => .error (.value e)
      | .ok parts => .ok (fieldsOf parts root)

end SymbolAtlas.Yaml
