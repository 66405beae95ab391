import SymbolAtlas.Session.Pass

/-!
# The operations of a session

Every operation is a function from sessions to sessions, with a reply. Documents are opened,
changed and closed through the buffer, which announces what happened; the indexer, the graph and
the history follow.
-/

namespace SymbolAtlas

/-- The parts of a session that can be disposed of. -/
inductive Part where
  | session
  | indexer
  | graph
  | history
  deriving DecidableEq, Repr

namespace Session

/-! ### Document notifications -/

/-- What a subscriber does about an opened document. -/
def receiveAdded (fileId : String) (s : Session) (who : Subscriber) : Session :=
  match who with
  | .indexer => s.observe fileId
  | .listener => s.hear (.documentAdded fileId) who
  | .graph | .history => s

/-- What a subscriber does about a changed document. -/
def receiveChanged (fileId : String) (s : Session) (who : Subscriber) : Session :=
  match who with
  | .indexer => if fileId ∈ s.index.tracked then s.schedule fileId else s.observe fileId
  | .listener => s.hear (.contentChanged fileId) who
  | .graph | .history => s

/-- The graph drops a file, and says so if it knew it. -/
def dropEdges (s : Session) (fileId : String) : Session :=
  if s.graph.hasFile fileId then
    { s with graph := s.graph.drop fileId }.announce (.graphUpdated fileId)
  else s

/-- What a subscriber does about a closed document. -/
def receiveRemoved (fileId : String) (s : Session) (who : Subscriber) : Session :=
  match who with
  | .indexer => s.forget fileId
  | .graph => s.dropEdges fileId
  | .history => { s with history := s.history.forgetBaseline fileId }
  | .listener => s.hear (.documentRemoved fileId) who

/-- What a subscriber does about a notification. -/
def receive (n : Notice) : Session → Subscriber → Session :=
  match n with
  | .documentAdded f => receiveAdded f
  | .contentChanged f => receiveChanged f
  | .documentRemoved f => receiveRemoved f
  | .snapshotUpdated f => receiveSnapshot f
  | .graphUpdated _ | .historyRecorded _ => hear n

/-- Tells all subscribers something. -/
def publish (s : Session) (n : Notice) : Session := s.deliver n (receive n)

/-- Publishes something the buffer has to say, if it is attached. -/
def publishFromBuffer (s : Session) (n : Notice) : Session :=
  if s.buffer.attached then s.publish n else s

/-! ### Documents -/

/-- Opens a document. -/
def openDocument (s : Session) (fileId : String) (content : Text) (language : String)
    (version : Int) : Session × Document :=
  let (d, topic) := s.buffer.opening fileId content language version
  let s := { s with buffer := s.buffer.put d }
  match Notice.ofTopic? topic fileId with
  | none => (s, d)
  | some n => (s.publishFromBuffer n, d)

/-- Puts the next version of a document into the buffer. -/
def putNext (s : Session) (d : Document) : Session :=
  { s with buffer := s.buffer.put d }.publishFromBuffer (.contentChanged d.fileId)

/-- Replaces the content of a document. -/
def update (s : Session) (fileId : String) (content : Text) : Session × Option Document :=
  match s.buffer.updating fileId content with
  | none => (s.note (.unknownUpdate fileId), none)
  | some d => (s.putNext d, some d)

/-- Replaces a stretch of a document. -/
def edit (s : Session) (fileId : String) (first last : Int) (text : Text) :
    Session × Option Document :=
  match s.buffer.editing fileId first last text with
  | none => (s.note (.unknownEdit fileId), none)
  | some d => (s.putNext d, some d)

/-- Closes a document. -/
def close (s : Session) (fileId : String) : Session × Bool :=
  match s.buffer.get? fileId with
  | none => (s, false)
  | some _ =>
    ({ s with buffer := s.buffer.remove fileId }.publishFromBuffer (.documentRemoved fileId), true)

/-! ### Disposal -/

/-- The history hears of nothing any more; its log stays. -/
def disposeHistory (s : Session) : Session := s.unsubscribe .history

/-- The graph hears of nothing any more and is emptied. -/
def disposeGraph (s : Session) : Session := { s.unsubscribe .graph with graph := .empty }

/-- The indexer hears of nothing any more and forgets everything. -/
def disposeIndexer (s : Session) : Session :=
  { s.unsubscribe .indexer with timers := s.timers.clear, index := .empty }

/-- Disposes of a part, or of all three. -/
def dispose (s : Session) : Part → Session
  | .history => s.disposeHistory
  | .graph => s.disposeGraph
  | .indexer => s.disposeIndexer
  | .session => s.disposeHistory.disposeGraph.disposeIndexer

/-! ### Sessions from the beginning -/

/-- A session over a buffer, with nothing indexed yet and its three parts registered in the order
given. -/
def blank (config : Config) (clocked : Bool) (buffer : Buffer) (subscribers : List Subscriber) :
    Session :=
  { config := config
    clocked := clocked
    buffer := buffer.attach
    subscribers := subscribers
    timers := .start
    index := .empty
    graph := .empty
    history := .empty
    fault := none
    heard := []
    diagnostics := [] }

/-- A session over a buffer. The documents open in it are taken up at once. -/
def new (config : Config) (clocked : Bool) (buffer : Buffer) : Session :=
  ((blank config clocked buffer [.indexer, .graph, .history]).start).note
    (.ready config.debounceMs config.languages)

/-! ### Operations as data -/

/-- What can be asked of a session. -/
inductive Op where
  | openDocument (fileId : String) (content : Text) (language : String) (version : Int)
  | update (fileId : String) (content : Text)
  | edit (fileId : String) (first last : Int) (text : Text)
  | close (fileId : String)
  /-- Puts a document into the buffer without telling anybody. -/
  | plant (d : Document)
  /-- Takes a document out of the buffer without telling anybody. -/
  | uproot (fileId : String)
  | publish (n : Notice)
  | advance (ms : Int)
  | flush
  | flushFile (fileId : String)
  | start
  | recompute (fileId : String)
  /-- From now on a computation fails, or none does. -/
  | setFault (fault : Option Fault)
  | dispose (part : Part)
  deriving DecidableEq, Repr

/-- What an operation answers. -/
inductive Reply where
  | nothing
  | document (d : Option Document)
  | closed (wasOpen : Bool)
  | snapshot (s : Option Snapshot)
  deriving DecidableEq, Repr

/-- Carries out an operation. -/
def step (s : Session) : Op → Session × Reply
  | .openDocument fileId content language version =>
    let (s, d) := s.openDocument fileId content language version
    (s, .document (some d))
  | .update fileId content =>
    let (s, d) := s.update fileId content
    (s, .document d)
  | .edit fileId first last text =>
    let (s, d) := s.edit fileId first last text
    (s, .document d)
  | .close fileId =>
    let (s, wasOpen) := s.close fileId
    (s, .closed wasOpen)
  | .plant d => ({ s with buffer := s.buffer.put d }, .nothing)
  | .uproot fileId => ({ s with buffer := s.buffer.remove fileId }, .nothing)
  | .publish n => (s.publish n, .nothing)
  | .advance ms => (s.advance ms, .nothing)
  | .flush => (s.flush, .nothing)
  | .flushFile fileId => (s.flushFile fileId, .nothing)
  | .start => (s.start, .nothing)
  | .recompute fileId =>
    let (s, snapshot) := s.recompute fileId
    (s, .snapshot snapshot)
  | .setFault fault => ({ s with fault := fault }, .nothing)
  | .dispose part => (s.dispose part, .nothing)

/-- Carries out operations one after the other. -/
def run (s : Session) (ops : List Op) : Session := ops.foldl (fun s op => (s.step op).1) s

end Session

end SymbolAtlas
