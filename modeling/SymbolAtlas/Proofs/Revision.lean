import SymbolAtlas.Proofs.CarryOver
import SymbolAtlas.Proofs.Leftovers

/-!
# What one revision of a document does

A file whose snapshot and baseline tell of its document (`Session.InSync`) gets another content.
Whether the pass is made at once, when the clock has moved on or because it is asked for, and
however many more passes follow, what is known of the file turns once and then stays
(`FileState.Turns.step`).  So where the new declarations continue the old ones, the ids are carried
over and exactly the renamings and additions are recorded (`Session.InSync.revised`).
-/

namespace SymbolAtlas

/-- Whether an operation, in the ordinary course of things, leaves the document of the file `f`
alone. -/
def Session.Op.spares (f : String) : Op → Bool
  | .openDocument g _ _ _ | .update g _ | .edit g _ _ _ | .close g => g ≠ f
  | op => op.ordinary

/-! ### One file -/

namespace FileState

/-- What is known of a file that is in sync: the snapshot is the baseline too. -/
structure Record where
  snapshot : Snapshot
  lineage : Lineage
  events : List (Int × Change)

/-- The file has the document `d`, which can be indexed, and is known by the record `r`. -/
structure Holds (d : Document) (r : Record) (x : FileState) : Prop where
  document : x.document = some d
  supported : x.config.isSupported d.language = true
  length : d.length ≤ x.config.maxDocumentChars
  fault : x.fault = none
  snapshot : x.snapshot = some r.snapshot
  baseline : x.baseline = some r.snapshot
  lineage : x.lineage.getD (.new d.fileId x.config.maxRetiredIds) = r.lineage
  events : x.events = r.events

/-- The record with the snapshot that `ids` give of the document `d`, and with the changes that it
shows. -/
def Record.next (r : Record) (d : Document) (ids : List String) (l : Lineage) : Record where
  snapshot := .ofOutline d (Outline.ofText d.content) ids
  lineage := l
  events := r.events ++
    (r.snapshot.changesTo (.ofOutline d (Outline.ofText d.content) ids)).map (d.version, ·)

variable {f : String} {d : Document} {r r' : Record} {x : FileState}

theorem Holds.setDue (h : x.Holds d r) (due : Option Int) : { x with due := due }.Holds d r :=
  ⟨h.document, h.supported, h.length, h.fault, h.snapshot, h.baseline, h.lineage, h.events⟩

theorem Holds.setTracked (h : x.Holds d r) (tracked : Bool) :
    { x with tracked := tracked }.Holds d r :=
  ⟨h.document, h.supported, h.length, h.fault, h.snapshot, h.baseline, h.lineage, h.events⟩

/-- The document that is held is supported. -/
theorem Holds.supported_eq (h : x.Holds d r) : x.supported = some d := by
  rw [FileState.supported, h.document, Option.filter_some, if_pos h.supported]

/-- **A pass** gives the file the snapshot of its document, which is compared with the one that it
had. -/
theorem Holds.pass (h : x.Holds d r) (hversion : r.snapshot.version ≤ d.version)
    {ids : List String} {l : Lineage}
    (hassign : r.lineage.assign (Outline.ofText d.content).declarations (some r.snapshot) =
      (.ok ids, l)) : x.pass.Holds d (r.next d ids l) := by
  have hassign' : x.assign d = (.ok ids, l) := by
    rw [FileState.assign, h.lineage, h.snapshot, hassign]
  have hpass : x.pass = x.installed (.ofOutline d (Outline.ofText d.content) ids) l := by
    have hlong : ¬ x.config.maxDocumentChars < d.length := Int.not_lt.mpr h.length
    have hold : ¬ d.version < r.snapshot.version := Int.not_lt.mpr hversion
    have hfault : x.fault ≠ some .outline := by simp [h.fault]
    simp only [FileState.pass, h.supported_eq, hlong, h.snapshot, hold, if_false, install, hfault,
      hassign', installed_eq]
  rw [hpass]
  refine ⟨h.document, h.supported, h.length, h.fault, rfl, ?_, rfl, ?_⟩
  · simp [installed, Record.next, h.fault]
  · simp [installed, Record.next, h.fault, changesWith, h.baseline, h.events, Snapshot.ofOutline]

/-- A pass over the document `d` turns the record `r` into `r'`, and further passes keep `r'`. -/
structure Turns (d : Document) (r r' : Record) : Prop where
  older : r.snapshot.version < d.version
  first : ∀ x : FileState, x.Holds d r → x.pass.Holds d r'
  again : ∀ x : FileState, x.Holds d r' → x.pass.Holds d r'

/-- The pass over the document is waiting, or it has been made. -/
def Turning (d : Document) (r r' : Record) (x : FileState) : Prop :=
  x.Holds d r ∧ x.due ≠ none ∨ x.Holds d r'

/-- While it turns, a file holds the one or the other. -/
theorem Turning.holds (h : x.Turning d r r') : x.Holds d r ∨ x.Holds d r' := h.imp_left And.left

namespace Turns

variable (h : Turns d r r')
include h

theorem pass (hx : x.Holds d r ∨ x.Holds d r') : x.pass.Holds d r' :=
  hx.elim (h.first x) (h.again x)

/-- A scheduled pass is left out only if it would change nothing. -/
theorem passNow (hx : x.Holds d r ∨ x.Holds d r') : x.passNow.Holds d r' := by
  rw [FileState.passNow]
  rcases scheduledPass_cases { x with due := none } with ⟨hsame, d₀, c₀, hd₀, hc₀, hv⟩ | hpass
  · rcases hx with hx | hx
    · obtain rfl := Option.some.inj (hx.document.symm.trans hd₀)
      obtain rfl := Option.some.inj (hx.snapshot.symm.trans hc₀)
      exact absurd hv (Int.ne_of_gt h.older)
    · rw [hsame]
      exact hx.setDue none
  · rw [hpass]
    exact h.pass (hx.imp (·.setDue none) (·.setDue none))

theorem schedule (hx : x.Holds d r ∨ x.Holds d r') (now : Int) :
    (x.schedule now).Turning d r r' := by
  unfold FileState.schedule
  split_ifs
  · exact hx.imp (fun hx => ⟨hx.setDue _, by simp⟩) (·.setDue _)
  · exact Or.inr (h.passNow hx)

theorem observe (hx : x.Holds d r ∨ x.Holds d r') (now : Int) :
    (x.observe now).Turning d r r' := by
  have hsupported : x.supported = some d := hx.elim (·.supported_eq) (·.supported_eq)
  rw [FileState.observe, hsupported]
  exact h.schedule (hx.imp (·.setTracked true) (·.setTracked true)) now

theorem flush (hx : x.Turning d r r') : x.flush.Turning d r r' := by
  unfold FileState.flush
  split_ifs
  · exact Or.inr (h.passNow hx.holds)
  · exact hx

/-- **What is known of a file turns once and then stays**, whatever is done that leaves its document
alone. -/
theorem step {op : Session.Op} (hop : op.spares f = true) (now : Int) (hx : x.Turning d r r') :
    (x.step f now op).Turning d r r' := by
  unfold FileState.step
  cases op with
  | openDocument g content language version | update g content | edit g first last text =>
    have hne : g ≠ f := by simpa [Session.Op.spares] using hop
    simpa [hne] using hx
  | close g =>
    have hne : g ≠ f := by simpa [Session.Op.spares] using hop
    simpa [hne] using hx
  | advance ms =>
    dsimp only [FileState.passUntil]
    split_ifs
    · exact Or.inr (h.passNow hx.holds)
    · exact hx
  | flush => exact h.flush hx
  | flushFile g =>
    dsimp only
    split_ifs
    · exact h.flush hx
    · exact hx
  | start => exact h.observe hx.holds now
  | recompute g =>
    dsimp only
    split_ifs
    · exact Or.inr (h.pass (hx.holds.imp (·.setDue none) (·.setDue none)))
    · exact hx
  | plant d | uproot g | publish n | setFault fault | dispose part => cases hop

/-- The document becomes `d`, and the indexer is told. -/
theorem revise {next : Document → Document} {d₀ : Document} (hd : x.document = some d₀)
    (hnext : next d₀ = d) (hx : { x with document := some d }.Holds d r) (now : Int) :
    (x.revise f now next).Turning d r r' := by
  simp only [FileState.revise, hd, hnext, receive, if_pos]
  split_ifs
  · exact h.schedule (Or.inl hx) now
  · exact h.observe (Or.inl hx) now

end Turns

/-- The snapshot of a document is made once. -/
theorem turns_next {ids : List String} {l : Lineage} (hversion : r.snapshot.version < d.version)
    (hassign : r.lineage.assign (Outline.ofText d.content).declarations (some r.snapshot) =
      (.ok ids, l)) : Turns d r (r.next d ids l) := by
  have hdrawn := Lineage.drawnFrom_of_assign hassign
  have hsame : (r.next d ids l).next d ids l = r.next d ids l := by
    simp [Record.next, Snapshot.changesTo_self]
  refine ⟨hversion, fun x hx => hx.pass (Int.le_of_lt hversion) hassign, fun x hx => ?_⟩
  exact hsame ▸ hx.pass (Int.le_refl _) (Lineage.assign_again l hdrawn)

end FileState

/-! ### Sessions -/

namespace Session

/-- The snapshots are made of documents of their files. -/
def Drawn (s : Session) : Prop :=
  ∀ f c, s.snapshot? f = some c → ∃ d ids, d.fileId = f ∧ c.DrawnFrom d ids

/-- Every move keeps snapshots drawn from documents. -/
theorem Drawn.moves {s t : Session} (h : s.Drawn) (hm : Moves s t) : t.Drawn := by
  intro f c hc
  rcases hm.snapshot_cases hc with hc | ⟨d, ids, l, rfl, hassign, rfl⟩
  · exact h f c hc
  · exact ⟨d, ids, rfl, Lineage.drawnFrom_of_assign hassign⟩

theorem Drawn.reaches {s t : Session} (h : s.Drawn) (hr : Reaches s t) : t.Drawn := by
  induction hr with
  | refl => exact h
  | tail _ hm ih => exact ih.moves hm

theorem drawn_of_empty {s : Session} (h : s.index = .empty) : s.Drawn :=
  fun f c hc => by simp [snapshot?, h, Index.empty] at hc

/-- So they are in every session that can be reached. -/
theorem Reachable.drawn {s : Session} (h : s.Reachable) : s.Drawn := by
  induction h with
  | blank => exact drawn_of_empty rfl
  | note _ _ ih | subscribe _ _ ih | unsubscribe _ _ ih => exact ih
  | step _ op ih =>
    cases op with
    | dispose part =>
      cases part with
      | graph | history => exact ih
      | indexer | session => exact drawn_of_empty rfl
    | _ => exact ih.reaches (follows_step _ rfl).reaches

/-- The changes recorded of a file, each with the version that showed it. -/
def recordedOf (s : Session) (f : String) : List (Int × Change) :=
  (s.history.eventsOf f).map fun e => (e.version, e.change)

/-- The file `f` is open in a supported language, nothing is made to fail, and the snapshot `c`,
which is the baseline too, tells of the content of the document `d`. -/
structure InSync (s : Session) (f : String) (d : Document) (c : Snapshot) : Prop where
  document : s.buffer.get? f = some d
  supported : s.config.isSupported d.language = true
  fault : s.fault = none
  snapshot : s.snapshot? f = some c
  source : c.source = d.content
  version : c.version ≤ d.version
  baseline : (s.history.ofFile f).baseline = some c

instance (s : Session) (f : String) (d : Document) (c : Snapshot) : Decidable (s.InSync f d c) :=
  decidable_of_iff (s.buffer.get? f = some d ∧ s.config.isSupported d.language = true ∧
      s.fault = none ∧ s.snapshot? f = some c ∧ c.source = d.content ∧ c.version ≤ d.version ∧
      (s.history.ofFile f).baseline = some c)
    ⟨fun ⟨h₁, h₂, h₃, h₄, h₅, h₆, h₇⟩ => ⟨h₁, h₂, h₃, h₄, h₅, h₆, h₇⟩,
      fun ⟨h₁, h₂, h₃, h₄, h₅, h₆, h₇⟩ => ⟨h₁, h₂, h₃, h₄, h₅, h₆, h₇⟩⟩

/-- From `s` to `s'` the document `d` of the file `f` got the content `t`: the snapshot `c` with the
ids `ids` was followed by `c'`, which has these ids and after them the ids `fresh`. -/
structure Revised (s s' : Session) (f : String) (d : Document) (t : Text) (c c' : Snapshot)
    (ids fresh : List String) : Prop where
  before : ∃ d₀ : Document, d₀.fileId = d.fileId ∧ d₀.content = d.content ∧ c.DrawnFrom d₀ ids
  after : c'.DrawnFrom (FileState.updated t d) (ids ++ fresh)
  snapshot : s'.snapshot? f = some c'
  recorded : s'.recordedOf f = s.recordedOf f ++
    (renamings (Outline.ofText d.content).declarations (Outline.ofText t).declarations ids ++
      additions ((Outline.ofText t).declarations.drop ids.length) fresh).map (d.version + 1, ·)
  retired : (s'.index.lineage f s.config.maxRetiredIds).retired =
    (s.index.lineage f s.config.maxRetiredIds).retired
  lineage : fresh = [] →
    s'.index.lineage f s.config.maxRetiredIds = s.index.lineage f s.config.maxRetiredIds

theorem Op.disposes_of_spares {f : String} {op : Op} (h : op.spares f = true) :
    op.disposes = false := by
  cases op with
  | dispose part => cases h
  | _ => rfl

section Update

variable {s : Session} {f : String} {d : Document} {c : Snapshot} {t : Text} {after : List Op}
  {r r' : FileState.Record}

/-- Once the pass is not waited for any more, the record has turned. -/
theorem Regular.turned (hs : s.Regular) (h : FileState.Turns (FileState.updated t d) r r')
    (hd : s.buffer.get? f = some d)
    (hholds : { s.file f with document := some (FileState.updated t d) }.Holds
      (FileState.updated t d) r) (hafter : ∀ op ∈ after, op.spares f = true)
    (hdone : (s.run (.update f t :: after)).timers.isPending f = false) :
    ((s.run (.update f t :: after)).file f).Holds (FileState.updated t d) r' := by
  have hupdate : ((s.step (.update f t)).1.file f).Turning (FileState.updated t d) r r' := by
    rw [file_step hs rfl, FileState.step, if_pos rfl]
    exact h.revise hd rfl hholds _
  have hrun : ((s.run (.update f t :: after)).file f).Turning (FileState.updated t d) r r' :=
    file_run (s := (s.step (.update f t)).1) (fun op hop => op.disposes_of_spares hop)
      (fun x now op hop hx => h.step hop now hx) (hs.step rfl) hupdate hafter
  refine hrun.resolve_left fun hwaiting => hwaiting.2 ?_
  rw [Timers.isPending_eq] at hdone
  exact Option.isNone_iff_eq_none.mp (Option.isSome_eq_false_iff.mp hdone)

/-- **A revision whose declarations continue those before** carries all ids over and is recorded as
its renamings and additions, once the pass over it is not waited for any more. -/
theorem InSync.revised (h : s.InSync f d c) (hregular : s.Regular) (hreachable : s.Reachable)
    (hlong : t.length ≤ s.config.maxDocumentChars)
    (hcontinues : Continues (Outline.ofText d.content).declarations (Outline.ofText t).declarations)
    (hafter : ∀ op ∈ after, op.spares f = true)
    (hdone : (s.run (.update f t :: after)).timers.isPending f = false) :
    ∃ c' ids fresh, Revised s (s.run (.update f t :: after)) f d t c c' ids fresh := by
  obtain rfl : d.fileId = f := hregular.filed f d h.document
  obtain ⟨d₀, ids, hfile, hdrawn⟩ := hreachable.drawn d.fileId c h.snapshot
  have hsource : d₀.content = d.content := by
    rw [← h.source, hdrawn.eq]
    rfl
  let r : FileState.Record :=
    ⟨c, s.index.lineage d.fileId s.config.maxRetiredIds, s.recordedOf d.fileId⟩
  obtain ⟨fresh, l, hassign, -, hretired, hlineage⟩ := Lineage.assign_of_continues
    r.lineage hdrawn (hsource ▸ hcontinues) (Lineage.containersBefore_ofText t)
  have hturns : FileState.Turns (FileState.updated t d) r
      (r.next (FileState.updated t d) (ids ++ fresh) l) :=
    FileState.turns_next (Int.lt_add_one_of_le h.version) hassign
  have hend := hregular.turned hturns h.document
    ⟨rfl, h.supported, hlong, h.fault, h.snapshot, h.baseline, rfl, rfl⟩ hafter hdone
  -- what is known of the file at the end, with the changes spelled out
  have hconfig : (s.run (.update d.fileId t :: after)).config = s.config :=
    config_run s fun op hop => (List.mem_cons.mp hop).elim (fun heq => heq ▸ rfl)
      fun hop => op.disposes_of_spares (hafter op hop)
  have hlast : (s.run (.update d.fileId t :: after)).index.lineage d.fileId
      s.config.maxRetiredIds = l := hconfig ▸ hend.lineage
  have hdrawn' := Lineage.drawnFrom_of_assign (d := FileState.updated t d) hassign
  have hown := hdrawn'.fileSymbolId_notMem
    ((hreachable.run _).identifies.snapshots d.fileId _ hend.snapshot)
  have hchanges := Snapshot.changesTo_of_append hdrawn hdrawn' hfile.symm (hfile ▸ hown)
  rw [hsource] at hchanges
  refine ⟨_, ids, fresh, ⟨d₀, hfile, hsource, hdrawn⟩, hdrawn', hend.snapshot, ?_, ?_,
    fun hnone => ?_⟩
  · refine hend.events.trans ?_
    rw [FileState.Record.next, hchanges]
    rfl
  · rw [hlast, hretired]
  · rw [hlast, hlineage hnone]

end Update

end Session

end SymbolAtlas
