import Mathlib.Data.List.Basic
import SymbolAtlas.Session.Step

/-!
# Who is called when

While an operation is carried out subscribers are called, in the order of their registration, and
may announce further things before the next one is called.  `Session.calls` lists these calls: each
with what it is about and with the session as the subscriber finds it.  The lists follow the
definitions of the operations.  `Session.Unfolds` is what ties the two to each other: everything
that an operation makes is announced at once, and the calls are those of these announcements.
-/

namespace SymbolAtlas

/-- A call of a subscriber about a notification, and the session as the subscriber finds it. -/
structure Call where
  who : Subscriber
  notice : Notice
  session : Session
  deriving DecidableEq, Repr

/-- What the listener is told in some calls. -/
def told (cs : List Call) : List Notice := (cs.filter (·.who = .listener)).map Call.notice

namespace Session

/-- Those who are told of something, in the order of their registration. -/
def audience (s : Session) (n : Notice) : List Subscriber :=
  s.subscribers.filter (·.listensTo n.topic)

/-- The calls made while something is done for one item after the other. -/
def callsOver {α : Type} (step : Session → α → Session) (calls : Session → α → List Call) :
    List α → Session → List Call
  | [], _ => []
  | a :: rest, s => calls s a ++ callsOver step calls rest (step s a)

/-- The calls made while something is delivered, each with the calls `inner` that come out of it. -/
def deliverCalls (s : Session) (n : Notice) (receive : Session → Subscriber → Session)
    (inner : Session → Subscriber → List Call) : List Call :=
  callsOver receive (fun s who => ⟨who, n, s⟩ :: inner s who) (s.audience n) s

/-! ### Passes -/

/-- The calls made while a change of the graph or of the history is announced. -/
def announceCalls (s : Session) (n : Notice) : List Call :=
  s.deliverCalls n (hear n) fun _ _ => []

/-- The calls made while the graph follows a new snapshot. -/
def rebuildEdgesCalls (s : Session) (fileId : String) : List Call :=
  match s.snapshot? fileId with
  | none => []
  | some snapshot =>
    if s.fault = some .edges then []
    else
      { s with graph := s.graph.replace fileId snapshot.callEdges }.announceCalls
        (.graphUpdated fileId)

/-- The calls made while the history records one change. -/
def recordChangeCalls (fileId : String) (version : Int) (s : Session) (c : Change) : List Call :=
  let e := s.history.nextEvent fileId version c
  { s with history := s.history.add e }.announceCalls (.historyRecorded e)

/-- The calls made while the history follows a new snapshot. -/
def recordChangesCalls (s : Session) (fileId : String) : List Call :=
  match s.snapshot? fileId with
  | none => []
  | some snapshot =>
    let history := s.history.know fileId
    if s.fault = some .changes && history.hasBaseline fileId then []
    else
      callsOver (recordChange fileId snapshot.version) (recordChangeCalls fileId snapshot.version)
        (history.changesWith fileId snapshot)
        { s with history := history.setBaseline fileId (some snapshot) }

/-- The calls that come out of telling a subscriber of a new snapshot. -/
def receiveSnapshotCalls (fileId : String) (s : Session) (who : Subscriber) : List Call :=
  match who with
  | .graph => s.rebuildEdgesCalls fileId
  | .history => s.recordChangesCalls fileId
  | .indexer | .listener => []

/-- The calls made while a new snapshot is announced. -/
def announceSnapshotCalls (s : Session) (fileId : String) : List Call :=
  s.deliverCalls (.snapshotUpdated fileId) (receiveSnapshot fileId) (receiveSnapshotCalls fileId)

/-- The calls made while a snapshot of a document is made. -/
def installCalls (s : Session) (d : Document) : List Call :=
  if s.fault = some .outline then []
  else
    match s.assignment d with
    | (.error _, _) => []
    | (.ok ids, lineage) =>
      let index :=
        { s.index with
          lineages := s.index.lineages.put d.fileId lineage
          snapshots := s.index.snapshots.put d.fileId
            (Snapshot.ofOutline d (Outline.ofText d.content) ids) }
      { s with index := index }.announceSnapshotCalls d.fileId

/-- The calls made during a forced pass. -/
def passCalls (s : Session) (fileId : String) : List Call :=
  match (s.buffer.get? fileId).filter fun d => s.config.isSupported d.language with
  | none => []
  | some d =>
    if s.config.maxDocumentChars < d.length then []
    else
      match s.snapshot? fileId with
      | none => s.installCalls d
      | some current => if d.version < current.version then [] else s.installCalls d

/-- The calls made during a scheduled pass. -/
def scheduledPassCalls (s : Session) (fileId : String) : List Call :=
  match s.buffer.get? fileId, s.snapshot? fileId with
  | some d, some current => if d.version = current.version then [] else s.passCalls fileId
  | _, _ => s.passCalls fileId

/-- The calls made while a pass is scheduled, which is made at once if there is no clock. -/
def scheduleCalls (s : Session) (fileId : String) : List Call :=
  if s.clocked then []
  else { s with timers := s.timers.cancel fileId }.scheduledPassCalls fileId

/-- The calls made while the waiting pass over a file is made now. -/
def flushFileCalls (s : Session) (fileId : String) : List Call :=
  if s.timers.isPending fileId then
    { s with timers := s.timers.cancel fileId }.scheduledPassCalls fileId
  else []

/-- The calls made during the waiting passes that are due by `target`. -/
def passUntilCalls (target : Int) : (fuel : Nat) → Session → List Call
  | 0, _ => []
  | fuel + 1, s =>
    match s.timers.next? target with
    | none => []
    | some timer =>
      let gone := { s with timers := s.timers.goOff timer }
      gone.scheduledPassCalls timer.key ++
        passUntilCalls target fuel (gone.scheduledPass timer.key)

/-- The calls made while the indexer takes up a document. -/
def observeCalls (s : Session) (fileId : String) : List Call :=
  match (s.buffer.get? fileId).filter fun d => s.config.isSupported d.language with
  | none => []
  | some _ => { s with index := s.index.track fileId }.scheduleCalls fileId

/-! ### Documents -/

/-- The calls made while the graph drops a file. -/
def dropEdgesCalls (s : Session) (fileId : String) : List Call :=
  if s.graph.hasFile fileId then
    { s with graph := s.graph.drop fileId }.announceCalls (.graphUpdated fileId)
  else []

/-- The calls that come out of telling a subscriber something. -/
def receiveCalls (n : Notice) (s : Session) (who : Subscriber) : List Call :=
  match n, who with
  | .documentAdded f, .indexer => s.observeCalls f
  | .contentChanged f, .indexer =>
    if f ∈ s.index.tracked then s.scheduleCalls f else s.observeCalls f
  | .documentRemoved f, .graph => s.dropEdgesCalls f
  | .snapshotUpdated f, who => receiveSnapshotCalls f s who
  | _, _ => []

/-- The calls made while something is published. -/
def publishCalls (s : Session) (n : Notice) : List Call :=
  s.deliverCalls n (receive n) (receiveCalls n)

/-- The calls made while the buffer has something to say. -/
def publishFromBufferCalls (s : Session) (n : Notice) : List Call :=
  if s.buffer.attached then s.publishCalls n else []

/-- The calls made while the next version of a document is put into the buffer. -/
def putNextCalls (s : Session) (d : Document) : List Call :=
  { s with buffer := s.buffer.put d }.publishFromBufferCalls (.contentChanged d.fileId)

/-! ### Operations -/

/-- The calls made while an operation is carried out. -/
def calls (s : Session) : Op → List Call
  | .openDocument fileId content language version =>
    let (d, topic) := s.buffer.opening fileId content language version
    match Notice.ofTopic? topic fileId with
    | none => []
    | some n => { s with buffer := s.buffer.put d }.publishFromBufferCalls n
  | .update fileId content => ((s.buffer.updating fileId content).map s.putNextCalls).getD []
  | .edit fileId first last text =>
    ((s.buffer.editing fileId first last text).map s.putNextCalls).getD []
  | .close fileId =>
    match s.buffer.get? fileId with
    | none => []
    | some _ =>
      { s with buffer := s.buffer.remove fileId }.publishFromBufferCalls (.documentRemoved fileId)
  | .publish n => s.publishCalls n
  | .advance ms => passUntilCalls (s.timers.now + ms) s.timers.waiting.length s
  | .flush => callsOver flushFile flushFileCalls s.timers.keys s
  | .flushFile fileId => s.flushFileCalls fileId
  | .start => callsOver observe observeCalls s.buffer.files s
  | .recompute fileId => { s with timers := s.timers.cancel fileId }.passCalls fileId
  | .plant _ | .uproot _ | .setFault _ | .dispose _ => []

end Session
end SymbolAtlas
