import SymbolAtlas.History.Change

/-!
# The history log

The log keeps, for each file, the events recorded for it and the snapshot that the next one will
be compared with. The first snapshot of a file is only such a baseline. Events are numbered from
1 over all files and are never taken back.
-/

namespace SymbolAtlas

/-- A recorded change, with the version of the snapshot that showed it. -/
structure Event where
  number : Nat
  fileId : String
  version : Int
  change : Change
  deriving DecidableEq, Repr

/-- The events of one file and the snapshot to compare the next one with. -/
structure FileHistory where
  events : List Event
  baseline : Option Snapshot
  deriving DecidableEq, Repr

/-- The histories of all files and the number of events recorded so far. -/
structure History where
  files : Entries String FileHistory
  recorded : Nat
  deriving DecidableEq, Repr

namespace History

/-- No events. -/
def empty : History := ⟨{}, 0⟩

/-- The history of a file, empty if nothing was ever recorded for it. -/
def ofFile (h : History) (fileId : String) : FileHistory :=
  (h.files.get? fileId).getD ⟨[], none⟩

/-- The events of a file, oldest first. -/
def eventsOf (h : History) (fileId : String) : List Event := (h.ofFile fileId).events

/-- The events of a symbol over all files, by number. -/
def eventsOfSymbol (h : History) (id : String) : List Event :=
  ((h.files.values.flatMap FileHistory.events).filter (·.change.symbolId = id)).mergeSort
    fun a b => a.number ≤ b.number

/-- Whether the next snapshot of a file has one to be compared with. -/
def hasBaseline (h : History) (fileId : String) : Bool := (h.ofFile fileId).baseline.isSome

/-- Makes sure that a file is known. -/
def know (h : History) (fileId : String) : History :=
  if h.files.has fileId then h else { h with files := h.files.put fileId ⟨[], none⟩ }

/-- Makes a snapshot the baseline of a file. -/
def setBaseline (h : History) (fileId : String) (baseline : Option Snapshot) : History :=
  { h with files := h.files.put fileId { h.ofFile fileId with baseline := baseline } }

/-- Forgets the baseline of a file; its events stay. -/
def forgetBaseline (h : History) (fileId : String) : History :=
  if h.files.has fileId then h.setBaseline fileId none else h

/-- The changes a snapshot shows against the baseline of its file. -/
def changesWith (h : History) (fileId : String) (snapshot : Snapshot) : List Change :=
  match (h.ofFile fileId).baseline with
  | none => []
  | some before => before.changesTo snapshot

/-- The event that records a change next. -/
def nextEvent (h : History) (fileId : String) (version : Int) (change : Change) : Event :=
  ⟨h.recorded + 1, fileId, version, change⟩

/-- Adds an event at the end of its file's log. -/
def add (h : History) (e : Event) : History :=
  let file := h.ofFile e.fileId
  { files := h.files.put e.fileId { file with events := file.events ++ [e] }
    recorded := h.recorded + 1 }

end History

end SymbolAtlas
