/-!
# Topics

What subscribers can be told about. Each topic goes by a name of its own.
-/

namespace SymbolAtlas

/-- The kinds of notification there are. -/
inductive Topic where
  | documentAdded
  | documentRemoved
  | contentChanged
  | snapshotUpdated
  | graphUpdated
  | historyRecorded
  deriving DecidableEq, Repr

namespace Topic

/-- All topics. -/
def all : List Topic :=
  [.documentAdded, .documentRemoved, .contentChanged, .snapshotUpdated, .graphUpdated,
    .historyRecorded]

/-- The name of a topic. -/
def name : Topic → String
  | .documentAdded => "on_document_added"
  | .documentRemoved => "on_document_removed"
  | .contentChanged => "on_document_content_changed"
  | .snapshotUpdated => "on_snapshot_updated"
  | .graphUpdated => "on_graph_updated"
  | .historyRecorded => "on_history_event_recorded"

/-- The topic of a name. -/
def ofName? (name : String) : Option Topic := all.find? (·.name = name)

end Topic

end SymbolAtlas
