import SymbolAtlas.Session.State

/-!
# Passes over a file

A pass reads the document of a file, makes a snapshot of it and tells everybody. The graph then
replaces the edges of the file, and the history records what changed; both announce what they
did. A pass that is skipped or fails leaves everything as it was.
-/

namespace SymbolAtlas

/-- The snapshot of a document, given its outline and the ids of its declarations. -/
def Snapshot.ofOutline (d : Document) (o : Outline) (ids : List String) : Snapshot :=
  let file : Symbol :=
    { id := fileSymbolId d.fileId
      name := fileName d.fileId
      kind := .file
      fileId := d.fileId
      span := o.fileSpan
      selection := ⟨1, 1, 1, 1⟩
      container := none
      summary := none
      metrics := some ⟨o.lineCount, none⟩
      body := none }
  { fileId := d.fileId
    version := d.version
    language := d.language
    symbols := file :: (o.declarations.zip ids).map fun (decl, id) =>
      .ofDeclaration d.fileId id (decl.container.bind (ids[·]?)) decl
    source := d.content }

namespace Session

/-! ### Telling -/

/-- What a subscriber does about a notification that only the listener cares about. -/
def hear (n : Notice) (s : Session) (who : Subscriber) : Session :=
  match who with
  | .listener => { s with heard := s.heard ++ [n] }
  | _ => s

/-- Tells something to those who care, in the order of their registration. -/
def deliver (s : Session) (n : Notice) (receive : Session → Subscriber → Session) : Session :=
  Registry.deliver (·.listensTo n.topic) receive s.subscribers s

/-- Tells all subscribers about a change of the graph or of the history. -/
def announce (s : Session) (n : Notice) : Session := s.deliver n (hear n)

/-- The graph replaces the edges of a file that has a new snapshot. -/
def rebuildEdges (s : Session) (fileId : String) : Session :=
  match s.snapshot? fileId with
  | none => s
  | some snapshot =>
    if s.fault = some .edges then s
    else
      { s with graph := s.graph.replace fileId snapshot.callEdges }.announce (.graphUpdated fileId)

/-- The history records one change. -/
def recordChange (fileId : String) (version : Int) (s : Session) (c : Change) : Session :=
  let e := s.history.nextEvent fileId version c
  { s with history := s.history.add e }.announce (.historyRecorded e)

/-- The history compares the new snapshot of a file with the last one it saw. -/
def recordChanges (s : Session) (fileId : String) : Session :=
  match s.snapshot? fileId with
  | none => s
  | some snapshot =>
    let history := s.history.know fileId
    if s.fault = some .changes && history.hasBaseline fileId then { s with history := history }
    else
      (history.changesWith fileId snapshot).foldl (recordChange fileId snapshot.version)
        { s with history := history.setBaseline fileId (some snapshot) }

/-- What a subscriber does about a new snapshot. -/
def receiveSnapshot (fileId : String) (s : Session) (who : Subscriber) : Session :=
  match who with
  | .indexer => s
  | .graph => s.rebuildEdges fileId
  | .history => s.recordChanges fileId
  | .listener => s.hear (.snapshotUpdated fileId) who

/-- Tells all subscribers about a new snapshot. -/
def announceSnapshot (s : Session) (fileId : String) : Session :=
  s.deliver (.snapshotUpdated fileId) (receiveSnapshot fileId)

/-! ### Passes -/

/-- The indexer forgets a file. -/
def forget (s : Session) (fileId : String) : Session :=
  { s with timers := s.timers.cancel fileId, index := s.index.forget fileId }

/-- The ids that the declarations of a document get, and the lineage of its file after that. -/
def assignment (s : Session) (d : Document) : Except AssignError (List String) × Lineage :=
  (s.index.lineage d.fileId s.config.maxRetiredIds).assign (Outline.ofText d.content).declarations
    (s.snapshot? d.fileId)

/-- Makes a new snapshot of a document and tells everybody. -/
def install (s : Session) (d : Document) : Session × Option Snapshot :=
  if s.fault = some .outline then (s, none)
  else
    match s.assignment d with
    | (.error _, lineage) =>
      ({ s with index := { s.index with lineages := s.index.lineages.put d.fileId lineage } }, none)
    | (.ok ids, lineage) =>
      let snapshot := Snapshot.ofOutline d (Outline.ofText d.content) ids
      let index :=
        { s.index with
          lineages := s.index.lineages.put d.fileId lineage
          snapshots := s.index.snapshots.put d.fileId snapshot }
      ({ s with index := index }.announceSnapshot d.fileId, some snapshot)

/-- A forced pass over a file. A document that is gone or not indexed any more is forgotten; one
that is too long, or older than its snapshot, is skipped. -/
def pass (s : Session) (fileId : String) : Session × Option Snapshot :=
  match (s.buffer.get? fileId).filter fun d => s.config.isSupported d.language with
  | none =>
    if fileId ∈ s.index.tracked then ((s.note (.dropped fileId)).forget fileId, none) else (s, none)
  | some d =>
    if s.config.maxDocumentChars < d.length then (s.note (.tooLarge fileId d.length), none)
    else
      match s.snapshot? fileId with
      | none => s.install d
      | some current =>
        if d.version < current.version then
          (s.note (.stale fileId d.version current.version), none)
        else s.install d

/-- A scheduled pass over a file does nothing if its snapshot has the document's version. -/
def scheduledPass (s : Session) (fileId : String) : Session :=
  match s.buffer.get? fileId, s.snapshot? fileId with
  | some d, some current =>
    if d.version = current.version then s.note (.current fileId d.version) else (s.pass fileId).1
  | _, _ => (s.pass fileId).1

/-- A pass over a file now, in place of one that is waiting. -/
def recompute (s : Session) (fileId : String) : Session × Option Snapshot :=
  { s with timers := s.timers.cancel fileId }.pass fileId

/-! ### Waiting -/

/-- Schedules a pass over a file; without a clock it is made at once. -/
def schedule (s : Session) (fileId : String) : Session :=
  if s.clocked then { s with timers := s.timers.schedule s.config.delay fileId }
  else { s with timers := s.timers.cancel fileId }.scheduledPass fileId

/-- Makes the waiting pass over a file now, if there is one. -/
def flushFile (s : Session) (fileId : String) : Session :=
  if s.timers.isPending fileId then
    { s with timers := s.timers.cancel fileId }.scheduledPass fileId
  else s

/-- Makes all waiting passes now. -/
def flush (s : Session) : Session := s.timers.keys.foldl flushFile s

/-- Makes the waiting passes due by `target`, in the order in which they are due. A pass
schedules no other one, so there are at most as many as are waiting. -/
def passUntil (target : Int) : (fuel : Nat) → Session → Session
  | 0, s => s
  | fuel + 1, s =>
    match s.timers.next? target with
    | none => s
    | some timer =>
      passUntil target fuel ({ s with timers := s.timers.goOff timer }.scheduledPass timer.key)

/-- Moves the clock on. -/
def advance (s : Session) (ms : Int) : Session :=
  let target := s.timers.now + ms
  let s := passUntil target s.timers.waiting.length s
  { s with timers := s.timers.setClock target }

/-- The indexer takes up a document if it is open and its language is supported. -/
def observe (s : Session) (fileId : String) : Session :=
  match (s.buffer.get? fileId).filter fun d => s.config.isSupported d.language with
  | none => s
  | some _ => { s with index := s.index.track fileId }.schedule fileId

/-- The indexer takes up all open documents. -/
def start (s : Session) : Session := s.buffer.files.foldl observe s

end Session

end SymbolAtlas
