import SymbolAtlas.Graph.Calls

/-!
# The call graph

The graph keeps the edges of each file together, and two indexes over the edges of all files: by
caller and by callee. The edges of a file are replaced as a whole. An index has no entry for a
symbol without edges.
-/

namespace SymbolAtlas

/-- The edges of every file, with an index by caller and one by callee. -/
structure CallGraph where
  files : Entries String (List Edge)
  outgoing : Entries String (List Edge)
  incoming : Entries String (List Edge)
  deriving DecidableEq, Repr

namespace CallGraph

/-- A graph of no file. -/
def empty : CallGraph := ⟨{}, {}, {}⟩

/-- Adds an edge at the end of a bucket. -/
def link (index : Entries String (List Edge)) (key : String) (e : Edge) :
    Entries String (List Edge) :=
  index.put key ((index.get? key).getD [] ++ [e])

/-- Takes an edge out of a bucket, and drops a bucket that is left empty. -/
def unlink (index : Entries String (List Edge)) (key : String) (e : Edge) :
    Entries String (List Edge) :=
  match index.get? key with
  | none => index
  | some bucket =>
    match bucket.filter (· ≠ e) with
    | [] => index.erase key
    | rest => index.put key rest

/-- Adds one edge to both indexes. -/
def addEdge (g : CallGraph) (e : Edge) : CallGraph :=
  { g with outgoing := link g.outgoing e.caller e, incoming := link g.incoming e.callee e }

/-- Takes one edge out of both indexes. -/
def removeEdge (g : CallGraph) (e : Edge) : CallGraph :=
  { g with outgoing := unlink g.outgoing e.caller e, incoming := unlink g.incoming e.callee e }

/-- Makes `edges` the edges of a file, in place of those it had. -/
def replace (g : CallGraph) (fileId : String) (edges : List Edge) : CallGraph :=
  let cleared := ((g.files.get? fileId).getD []).foldl removeEdge g
  edges.foldl addEdge { cleared with files := cleared.files.put fileId edges }

/-- Drops a file with its edges. -/
def drop (g : CallGraph) (fileId : String) : CallGraph :=
  ((g.files.get? fileId).getD []).foldl removeEdge { g with files := g.files.erase fileId }

/-- Whether the graph knows a file, be it without edges. -/
def hasFile (g : CallGraph) (fileId : String) : Bool := g.files.has fileId

/-- The edges of a file. -/
def edgesOf (g : CallGraph) (fileId : String) : List Edge := (g.files.get? fileId).getD []

/-- The calls that a symbol makes. -/
def callees (g : CallGraph) (id : String) : List Edge := (g.outgoing.get? id).getD []

/-- The calls made of a symbol. -/
def callers (g : CallGraph) (id : String) : List Edge := (g.incoming.get? id).getD []

/-- What is found around `level`, one layer of callers after the other; ids in `seen` are left
out. -/
def layers (g : CallGraph) : (fuel : Nat) → (seen level : List String) → List String
  | 0, _, _ => []
  | fuel + 1, seen, level =>
    match ((level.flatMap fun id => (g.callers id).map Edge.caller).filter
        fun id => !seen.contains id).eraseDups with
    | [] => []
    | next => next ++ g.layers fuel (seen ++ next) next

/-- The ids of all symbols that call `id`, directly or through others, nearest first and without
`id` itself. Every layer uses up a caller, so the number of edges bounds the layers. -/
def impact (g : CallGraph) (id : String) : List String :=
  g.layers g.incoming.values.flatten.length [id] [id]

end CallGraph

end SymbolAtlas
