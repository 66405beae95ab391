import SymbolAtlas.Proofs.Files

/-!
# Sessions from the beginning

A session begins over a buffer that may hold documents already, with or without a clock and with
or without a listener (`Session.Fresh`).  Each file is then in the state in which the indexer
first looks at it (`Fresh.file`), and the session is in order (`Fresh.regular`).
-/

namespace SymbolAtlas

/-- A buffer into which the documents of a list were put before the session began. -/
def Buffer.holding (documents : List Document) : Buffer := documents.foldl put (.new false)

/-- Documents are held once, under their ids. -/
theorem Buffer.filed_holding (documents : List Document) :
    (∀ f d, (holding documents).get? f = some d → d.fileId = f) ∧
      (holding documents).files.Nodup := by
  have hfold : ∀ b : Buffer, (∀ f d, b.get? f = some d → d.fileId = f) ∧ b.files.Nodup →
      (∀ f d, (documents.foldl put b).get? f = some d → d.fileId = f) ∧
        (documents.foldl put b).files.Nodup := by
    induction documents with
    | nil => exact fun b hb => hb
    | cons d documents ih =>
      refine fun b hb => ih (b.put d) ⟨fun f d' hd' => ?_, Entries.nodup_keys_put hb.2 _ _⟩
      simp only [get?, put, Entries.get?_put] at hd'
      split_ifs at hd' with hf
      · rw [← Option.some.inj hd', hf]
      · exact hb.1 f d' hd'
  exact hfold (.new false) ⟨fun f d hd => by simp [new, get?] at hd, List.nodup_nil⟩

/-- A file before the indexer has looked at it. -/
def FileState.unread (config : Config) (clocked : Bool) (document : Option Document) :
    FileState where
  config := config
  clocked := clocked
  fault := none
  document := document
  due := none
  tracked := false
  snapshot := none
  lineage := none
  edges := none
  baseline := none
  events := []

namespace Session

/-- A session that has just begun. -/
inductive Fresh (config : Config) : Session → Prop
  | new (clocked : Bool) (documents : List Document) :
      Fresh config (Session.new config clocked (.holding documents))
  | listen {s : Session} (h : Fresh config s) : Fresh config (s.subscribe .listener)

/-- A session starts out regular. -/
theorem regular_blank (config : Config) (clocked : Bool) (documents : List Document) :
    (blank config clocked (.holding documents) [.indexer, .graph, .history]).Regular :=
  ⟨rfl, (Buffer.filed_holding documents).1, (Buffer.filed_holding documents).2, rfl,
    List.nodup_nil⟩

/-- A new one is regular. -/
theorem Fresh.regular {config : Config} {s : Session} (h : Fresh config s) : s.Regular := by
  induction h with
  | new clocked documents =>
    have hstart : Op.start.disposes = false := rfl
    exact ((regular_blank config clocked documents).step hstart).moves (.note _ _)
  | @listen s _ ih =>
    refine ⟨ih.attached, ih.filed, ih.files, ?_, ih.timers⟩
    rw [← ih.wired, subscribe, Registry.register]
    split_ifs
    · rfl
    · simp

theorem Fresh.config {config : Config} {s : Session} (h : Fresh config s) : s.config = config := by
  induction h with
  | new clocked documents =>
    have hstart : Op.start.disposes = false := rfl
    exact (Moves.note _ _).config.trans (config_step (blank config clocked _ _) hstart)
  | listen _ ih => exact ih

/-- The indexer has looked at every file once. -/
theorem Fresh.file {config : Config} {s : Session} (h : Fresh config s) (f : String) :
    ∃ clocked document, s.file f = (FileState.unread config clocked document).observe 0 := by
  induction h with
  | new clocked documents =>
    exact ⟨clocked, _, (actsOnEach_start (regular_blank config clocked documents)).1.file f⟩
  | listen _ ih => exact ih

/-- Whether documents are changed in the open: nothing is put into the buffer or taken out of it
without a word, nothing is announced that did not happen, and nothing is disposed of. -/
def Op.regular : Op → Bool
  | .plant _ | .uproot _ | .publish _ | .dispose _ => false
  | _ => true

/-- Whether nothing is made to fail either. -/
def Op.ordinary : Op → Bool
  | .setFault _ => false
  | op => op.regular

theorem Op.disposes_of_regular {op : Op} (h : op.regular = true) : op.disposes = false := by
  cases op with
  | dispose part => cases h
  | _ => rfl

theorem Op.regular_of_ordinary {op : Op} (h : op.ordinary = true) : op.regular = true := by
  cases op with
  | setFault fault => rfl
  | _ => exact h

end Session
end SymbolAtlas
