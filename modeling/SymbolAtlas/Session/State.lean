import SymbolAtlas.Document
import SymbolAtlas.Lineage
import SymbolAtlas.Graph.CallGraph
import SymbolAtlas.History.Log
import SymbolAtlas.Debounce.Timers
import SymbolAtlas.Hub.Hub
import SymbolAtlas.Settings.Config
import SymbolAtlas.Text.Path

/-!
# The state of a session

A session keeps, for the open documents, an index of their snapshots, a call graph and a history.
The three are subscribers of the session's notifications, and so is a listener that notes what it
hears. Subscribers are told in the order of their registration, which is part of the state.
-/

namespace SymbolAtlas

/-- What a notification says. -/
inductive Notice where
  | documentAdded (fileId : String)
  | documentRemoved (fileId : String)
  | contentChanged (fileId : String)
  | snapshotUpdated (fileId : String)
  | graphUpdated (fileId : String)
  | historyRecorded (event : Event)
  deriving DecidableEq, Repr

/-- The topic of a notification. -/
def Notice.topic : Notice → Topic
  | .documentAdded _ => .documentAdded
  | .documentRemoved _ => .documentRemoved
  | .contentChanged _ => .contentChanged
  | .snapshotUpdated _ => .snapshotUpdated
  | .graphUpdated _ => .graphUpdated
  | .historyRecorded _ => .historyRecorded

/-- The notification of a topic about a file, if it is about files. -/
def Notice.ofTopic? (topic : Topic) (fileId : String) : Option Notice :=
  match topic with
  | .documentAdded => some (.documentAdded fileId)
  | .documentRemoved => some (.documentRemoved fileId)
  | .contentChanged => some (.contentChanged fileId)
  | .snapshotUpdated => some (.snapshotUpdated fileId)
  | .graphUpdated => some (.graphUpdated fileId)
  | .historyRecorded => none

/-- Those who can be told. -/
inductive Subscriber where
  | indexer
  | graph
  | history
  | listener
  deriving DecidableEq, Repr

/-- Which topics a subscriber cares about. -/
def Subscriber.listensTo : Subscriber → Topic → Bool
  | .indexer, .documentAdded | .indexer, .documentRemoved | .indexer, .contentChanged => true
  | .graph, .snapshotUpdated | .graph, .documentRemoved => true
  | .history, .snapshotUpdated | .history, .documentRemoved => true
  | .listener, _ => true
  | _, _ => false

/-- The computations that can be made to fail. -/
inductive Fault where
  | outline
  | edges
  | changes
  deriving DecidableEq, Repr

/-- What the session has to say about its own work. -/
inductive Diagnostic where
  | ready (debounceMs : Int) (languages : List String)
  | current (fileId : String) (version : Int)
  | dropped (fileId : String)
  | tooLarge (fileId : String) (length : Nat)
  | stale (fileId : String) (version newest : Int)
  | unknownUpdate (fileId : String)
  | unknownEdit (fileId : String)
  deriving DecidableEq, Repr

/-- What the indexer knows. -/
structure Index where
  /-- The files that get a snapshot when they change. -/
  tracked : List String
  snapshots : Entries String Snapshot
  lineages : Entries String Lineage
  deriving DecidableEq, Repr

namespace Index

/-- An index of nothing. -/
def empty : Index := ⟨[], {}, {}⟩

/-- Tracks a file. -/
def track (ix : Index) (fileId : String) : Index :=
  if fileId ∈ ix.tracked then ix else { ix with tracked := ix.tracked ++ [fileId] }

/-- Forgets all about a file. -/
def forget (ix : Index) (fileId : String) : Index :=
  { tracked := ix.tracked.filter (· ≠ fileId)
    snapshots := ix.snapshots.erase fileId
    lineages := ix.lineages.erase fileId }

/-- The lineage of a file, a new one if it has none. -/
def lineage (ix : Index) (fileId : String) (capacity : Int) : Lineage :=
  (ix.lineages.get? fileId).getD (.new fileId capacity)

end Index

/-- All that a session knows. -/
structure Session where
  config : Config
  /-- Whether there is a clock to wait on; without one files are indexed at once. -/
  clocked : Bool
  buffer : Buffer
  /-- Who is told, in the order of registration. -/
  subscribers : List Subscriber
  timers : Timers
  index : Index
  graph : CallGraph
  history : History
  fault : Option Fault
  /-- What the listener has heard. -/
  heard : List Notice
  diagnostics : List Diagnostic
  deriving DecidableEq, Repr

namespace Session

/-- The snapshot of a file. -/
def snapshot? (s : Session) (fileId : String) : Option Snapshot := s.index.snapshots.get? fileId

/-- How many subscribers a topic has. -/
def subscriberCount (s : Session) (topic : Topic) : Nat :=
  (s.subscribers.filter (·.listensTo topic)).length

/-- Notes a diagnostic. -/
def note (s : Session) (d : Diagnostic) : Session := { s with diagnostics := s.diagnostics ++ [d] }

/-- Registers a subscriber. -/
def subscribe (s : Session) (who : Subscriber) : Session :=
  { s with subscribers := Registry.register s.subscribers who }

/-- Unregisters a subscriber. -/
def unsubscribe (s : Session) (who : Subscriber) : Session :=
  { s with subscribers := Registry.unregister s.subscribers who }

end Session

end SymbolAtlas
