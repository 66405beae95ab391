import SymbolAtlas.Session.State

/-!
# Questions to a session

Read-only views of a session: what a symbol is, who depends on it, and what changed lately.
-/

namespace SymbolAtlas

/-- What is said about a symbol when it is explained. -/
structure Explanation where
  symbolId : String
  name : String
  kind : Kind
  fileId : String
  location : Span
  callers : Nat
  callees : Nat
  deriving DecidableEq, Repr

/-- The explanation as lines of text. -/
def Explanation.lines (e : Explanation) : List String :=
  [ "Symbol: " ++ e.name,
    "Location: " ++ e.fileId ++ ":" ++ toString e.location.startLine ++ ":" ++
      toString e.location.startColumn,
    "Direct callers: " ++ toString e.callers,
    "Direct callees: " ++ toString e.callees ]

/-- The explanation as one text. -/
def Explanation.text (e : Explanation) : String := "\n".intercalate e.lines

namespace Session

/-- The first symbol of a file whose span contains a position. -/
def symbolAt (s : Session) (fileId : String) (p : Position) : Option Symbol :=
  (s.snapshot? fileId).bind fun snapshot => snapshot.symbols.find? (·.span.contains p)

/-- The innermost declaration of a file around a position. -/
def describeAt (s : Session) (fileId : String) (p : Position) : Option Symbol :=
  (s.snapshot? fileId).bind fun snapshot => enclosing snapshot.declared p

/-- The tracked files by name. -/
def trackedFiles (s : Session) : List String := s.index.tracked.mergeSort fun a b => a ≤ b

/-- The declarations of a file that have no container. -/
def exported (s : Session) (fileId : String) : List Symbol :=
  ((s.snapshot? fileId).map fun snapshot =>
    snapshot.declared.filter (·.container.isNone)).getD []

/-- The files that a file imports. Imports are not followed, so there are none. -/
def imports (_ : Session) (_ : String) : List String := []

/-- The files in the graph by name. -/
def graphFiles (s : Session) : List String := s.graph.files.keys.mergeSort fun a b => a ≤ b

/-- The files in the history by name. -/
def historyFiles (s : Session) : List String := s.history.files.keys.mergeSort fun a b => a ≤ b

/-- All files that the buffer, the index, the graph or the history know. -/
def knownFiles (s : Session) : List String :=
  (s.buffer.files ++ s.index.tracked ++ s.graph.files.keys ++ s.history.files.keys).eraseDups

/-- Explains a symbol of a file. -/
def explain (s : Session) (fileId symbolId : String) : Option Explanation :=
  ((s.snapshot? fileId).bind (·.symbol? symbolId)).map fun x =>
    { symbolId := x.id
      name := x.name
      kind := x.kind
      fileId := x.fileId
      location := x.selection
      callers := (s.graph.callers x.id).length
      callees := (s.graph.callees x.id).length }

/-- The other symbols of a file with the name of a symbol. -/
def duplicates (s : Session) (fileId symbolId : String) : List Symbol :=
  match s.snapshot? fileId with
  | none => []
  | some snapshot =>
    match snapshot.symbol? symbolId with
    | none => []
    | some x => snapshot.symbols.filter fun y => y.name = x.name && y.id ≠ x.id

/-- The number and summary of each event of a file. -/
def timeline (s : Session) (fileId : String) : List (Nat × String) :=
  (s.history.eventsOf fileId).map fun e => (e.number, e.change.summary)

/-- The current version of the file of each of its events, where it has a snapshot. -/
def versionsOfEvents (s : Session) (fileId : String) : List (Option Int) :=
  (s.history.eventsOf fileId).map fun e => (s.snapshot? e.fileId).map Snapshot.version

/-- The spans of the symbols touched by the last `limit` events of a file, as far as they still
exist, each span once. -/
def recent (s : Session) (fileId : String) (limit : Int) : List Span :=
  match s.snapshot? fileId with
  | none => []
  | some snapshot =>
    let events := s.history.eventsOf fileId
    ((events.drop (events.length - limit.toNat)).filterMap fun e =>
      (snapshot.symbol? e.change.symbolId).map Symbol.span).eraseDups

/-- The recent spans, as many events as the configuration says. -/
def recentChanges (s : Session) (fileId : String) : List Span :=
  s.recent fileId s.config.recentChangesLimit

end Session

end SymbolAtlas
