import SymbolAtlas.Entries
import SymbolAtlas.Text.Lines
import SymbolAtlas.Hub.Topic

/-!
# Documents and their buffer

The buffer holds the open documents in the order of their opening. Every change of a document
raises its version by one. Changes are announced once the buffer is attached to a hub.
-/

namespace SymbolAtlas

/-- One version of an open document. -/
structure Document where
  fileId : String
  content : Text
  language : String
  version : Int
  deriving DecidableEq, Repr

/-- The length of a document. -/
def Document.length (d : Document) : Nat := d.content.length

/-- The open documents, and whether their changes are announced. -/
structure Buffer where
  documents : Entries String Document
  attached : Bool
  deriving DecidableEq, Repr

namespace Buffer

/-- A buffer without documents. -/
def new (attached : Bool) : Buffer := ⟨{}, attached⟩

/-- From now on changes are announced. -/
def attach (b : Buffer) : Buffer := { b with attached := true }

/-- An open document. -/
def get? (b : Buffer) (fileId : String) : Option Document := b.documents.get? fileId

/-- The open files in the order of their opening. -/
def files (b : Buffer) : List String := b.documents.keys

/-- The position of an offset in an open document. -/
def positionAt (b : Buffer) (fileId : String) (offset : Int) : Option Position :=
  (b.get? fileId).map fun d => (LineIndex.ofText d.content).positionAt offset

/-- Puts a document in; one that is open keeps its place. -/
def put (b : Buffer) (d : Document) : Buffer := { b with documents := b.documents.put d.fileId d }

/-- Takes a document out. -/
def remove (b : Buffer) (fileId : String) : Buffer :=
  { b with documents := b.documents.erase fileId }

/-- The document that opening a file leads to, and the topic to announce. An open document gets
the new content and language and its next version. -/
def opening (b : Buffer) (fileId : String) (content : Text) (language : String) (version : Int) :
    Document × Topic :=
  match b.get? fileId with
  | none => (⟨fileId, content, language, version⟩, .documentAdded)
  | some d =>
    ({ d with content := content, language := language, version := d.version + 1 }, .contentChanged)

/-- The next version of a document with its whole content replaced. -/
def updating (b : Buffer) (fileId : String) (content : Text) : Option Document :=
  (b.get? fileId).map fun d => { d with content := content, version := d.version + 1 }

/-- The next version of a document with the text from `first` up to `last` replaced. Both are
clamped to the text, and `last` to what follows `first`. -/
def editing (b : Buffer) (fileId : String) (first last : Int) (text : Text) : Option Document :=
  (b.get? fileId).map fun d =>
    let first := min first.toNat d.length
    let last := max first (min last.toNat d.length)
    { d with
      content := d.content.take first ++ text ++ d.content.drop last
      version := d.version + 1 }

end Buffer

end SymbolAtlas
