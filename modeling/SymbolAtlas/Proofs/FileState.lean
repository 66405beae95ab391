import SymbolAtlas.Proofs.Lineage
import SymbolAtlas.Proofs.Timers
import SymbolAtlas.Session.Step

/-!
# One file on its own

`FileState` is what a session knows about one file, with the settings that its passes go by.
`FileState.step` says what an operation does to it, without a look at any other file, and
`FileState.stepNotices` what notifications about the file it brings about.  Of an event that was
recorded a notification also tells the number, which counts the events of all files;
`Notice.plain` leaves it out.  The documents of other files, their timers and the order of the
subscribers are out of sight here; that sessions treat each file in this way is proved apart.
-/

namespace SymbolAtlas

/-- An event without its number. -/
def Event.plain (e : Event) : Event := { e with number := 0 }

namespace Notice

/-- The file that a notification is about. -/
def fileId : Notice → String
  | documentAdded f | documentRemoved f | contentChanged f | snapshotUpdated f | graphUpdated f => f
  | historyRecorded e => e.fileId

/-- A notification without the number of its event. -/
def plain : Notice → Notice
  | historyRecorded e => .historyRecorded e.plain
  | n => n

end Notice

/-- What a session knows about one file. -/
structure FileState where
  config : Config
  clocked : Bool
  fault : Option Fault
  document : Option Document
  /-- The moment for which a pass is scheduled. -/
  due : Option Int
  tracked : Bool
  snapshot : Option Snapshot
  lineage : Option Lineage
  /-- The edges in the graph, if the graph knows the file. -/
  edges : Option (List Edge)
  baseline : Option Snapshot
  /-- The changes recorded, each with the version that showed it. -/
  events : List (Int × Change)
  deriving DecidableEq, Repr

namespace FileState

/-! ### Passes -/

/-- The graph takes the edges of the snapshot. -/
def rebuildEdges (x : FileState) : FileState :=
  match x.snapshot with
  | none => x
  | some snapshot =>
    if x.fault = some .edges then x else { x with edges := some snapshot.callEdges }

/-- What a snapshot shows against the baseline. -/
def changesWith (x : FileState) (snapshot : Snapshot) : List Change :=
  match x.baseline with
  | none => []
  | some before => before.changesTo snapshot

/-- The history compares the snapshot with the baseline and makes it the next one. -/
def recordChanges (x : FileState) : FileState :=
  match x.snapshot with
  | none => x
  | some snapshot =>
    if x.fault = some .changes && x.baseline.isSome then x
    else
      { x with
        baseline := some snapshot
        events := x.events ++ (x.changesWith snapshot).map fun c => (snapshot.version, c) }

/-- The indexer forgets the file. -/
def forget (x : FileState) : FileState :=
  { x with due := none, tracked := false, snapshot := none, lineage := none }

/-- The ids for the declarations of a document. -/
def assign (x : FileState) (d : Document) : Except AssignError (List String) × Lineage :=
  (x.lineage.getD (.new d.fileId x.config.maxRetiredIds)).assign
    (Outline.ofText d.content).declarations x.snapshot

/-- A new snapshot of a document is made, and graph and history follow. -/
def install (x : FileState) (d : Document) : FileState :=
  if x.fault = some .outline then x
  else
    match x.assign d with
    | (.error _, lineage) => { x with lineage := some lineage }
    | (.ok ids, lineage) =>
      { x with
        lineage := some lineage
        snapshot := some (.ofOutline d (Outline.ofText d.content) ids) }.rebuildEdges.recordChanges

/-- The file after a pass that gave it a new snapshot and a new lineage.  Graph and history follow
unless they are made to fail; without a baseline the history has nothing to compare and cannot. -/
def installed (x : FileState) (snapshot : Snapshot) (lineage : Lineage) : FileState :=
  { x with
    snapshot := some snapshot
    lineage := some lineage
    edges := if x.fault = some .edges then x.edges else some snapshot.callEdges
    baseline :=
      if x.fault = some .changes && x.baseline.isSome then x.baseline else some snapshot
    events :=
      if x.fault = some .changes && x.baseline.isSome then x.events
      else x.events ++ (x.changesWith snapshot).map fun c => (snapshot.version, c) }

/-- A new snapshot brings its edges and its changes with it. -/
theorem installed_eq (x : FileState) (snapshot : Snapshot) (lineage : Lineage) :
    { x with snapshot := some snapshot, lineage := some lineage }.rebuildEdges.recordChanges =
      x.installed snapshot lineage := by
  simp only [rebuildEdges, installed]
  split_ifs <;> simp_all [recordChanges, changesWith]

/-- The open document, if its language is supported. -/
def supported (x : FileState) : Option Document :=
  x.document.filter fun d => x.config.isSupported d.language

theorem document_of_supported {x : FileState} {d : Document} (h : x.supported = some d) :
    x.document = some d := (Option.filter_eq_some_iff.mp h).1

/-- A forced pass. -/
def pass (x : FileState) : FileState :=
  match x.supported with
  | none => if x.tracked then x.forget else x
  | some d =>
    if x.config.maxDocumentChars < d.length then x
    else
      match x.snapshot with
      | none => x.install d
      | some current => if d.version < current.version then x else x.install d

/-- How a pass can end. -/
inductive Passes (x : FileState) : FileState → Prop
  | untracked (hd : x.supported = none) (ht : x.tracked = false) : Passes x x
  | dropped (hd : x.supported = none) (ht : x.tracked = true) : Passes x x.forget
  | tooLong {d : Document} (hd : x.supported = some d)
      (hlong : x.config.maxDocumentChars < d.length) : Passes x x
  | stale {d : Document} {current : Snapshot} (hd : x.supported = some d)
      (hc : x.snapshot = some current) (hold : d.version < current.version) : Passes x x
  | failed {d : Document} (hd : x.supported = some d) (hf : x.fault = some .outline) : Passes x x
  | stranded {d : Document} {e : AssignError} {l : Lineage} (hd : x.supported = some d)
      (ha : x.assign d = (.error e, l)) : Passes x { x with lineage := some l }
  | installed {d : Document} {ids : List String} {l : Lineage} (hd : x.supported = some d)
      (hlong : d.length ≤ x.config.maxDocumentChars)
      (hold : ∀ current, x.snapshot = some current → current.version ≤ d.version)
      (hf : x.fault ≠ some .outline) (ha : x.assign d = (.ok ids, l)) :
      Passes x (x.installed (.ofOutline d (Outline.ofText d.content) ids) l)

/-- A pass over such a document ends in one of these ways. -/
theorem passes_install {x : FileState} {d : Document} (hd : x.supported = some d)
    (hlong : d.length ≤ x.config.maxDocumentChars)
    (hold : ∀ current, x.snapshot = some current → current.version ≤ d.version) :
    Passes x (x.install d) := by
  unfold install
  split_ifs with hf
  · exact .failed hd hf
  · split
    · rename_i ha
      exact .stranded hd ha
    · rename_i ha
      rw [installed_eq]
      exact .installed hd hlong hold hf ha

/-- So does every pass. -/
theorem passes_pass (x : FileState) : Passes x x.pass := by
  unfold pass
  cases hd : x.supported with
  | none =>
    dsimp only
    split_ifs with ht
    · exact .dropped hd ht
    · exact .untracked hd (by simpa using ht)
  | some d =>
    dsimp only
    split_ifs with hlong
    · exact .tooLong hd hlong
    · cases hc : x.snapshot with
      | none => exact passes_install hd (Int.not_lt.mp hlong) (by simp [hc])
      | some current =>
        dsimp only
        split_ifs with hold
        · exact .stale hd hc hold
        · refine passes_install hd (Int.not_lt.mp hlong) fun current' hc' => ?_
          rw [← Option.some.inj (hc.symm.trans hc')]
          exact Int.not_lt.mp hold

/-- A pass makes nothing wait. -/
theorem Passes.due {x y : FileState} (h : Passes x y) (hx : x.due = none) : y.due = none := by
  cases h with
  | dropped => rfl
  | _ => exact hx

/-- A scheduled pass. -/
def scheduledPass (x : FileState) : FileState :=
  match x.document, x.snapshot with
  | some d, some current => if d.version = current.version then x else x.pass
  | _, _ => x.pass

/-- A scheduled pass does nothing, or it is a pass; it does nothing only if the snapshot has the
version of the document. -/
theorem scheduledPass_cases (x : FileState) :
    (x.scheduledPass = x ∧ ∃ d current, x.document = some d ∧ x.snapshot = some current ∧
      d.version = current.version) ∨ x.scheduledPass = x.pass := by
  unfold scheduledPass
  cases hd : x.document with
  | none => exact Or.inr rfl
  | some d =>
    cases hc : x.snapshot with
    | none => exact Or.inr rfl
    | some current =>
      dsimp only
      split_ifs with hv
      · exact Or.inl ⟨rfl, d, current, rfl, rfl, hv⟩
      · exact Or.inr rfl

/-- The scheduled pass is made now and does not wait any more. -/
def passNow (x : FileState) : FileState := { x with due := none }.scheduledPass

theorem due_passNow (x : FileState) : x.passNow.due = none := by
  rcases scheduledPass_cases { x with due := none } with ⟨h, -⟩ | h
  · rw [passNow, h]
  · rw [passNow, h]
    exact (passes_pass _).due rfl

/-- A pass is scheduled; without a clock it is made at once. -/
def schedule (now : Int) (x : FileState) : FileState :=
  if x.clocked then { x with due := some (now + x.config.delay) } else x.passNow

/-- A waiting pass is made now. -/
def flush (x : FileState) : FileState := if x.due.isSome then x.passNow else x

/-- A waiting pass is made if it is due by `target`. -/
def passUntil (target : Int) (x : FileState) : FileState :=
  if x.due.any (· ≤ target) then x.passNow else x

/-- The indexer takes up the file if its document is in a supported language. -/
def observe (now : Int) (x : FileState) : FileState :=
  match x.supported with
  | none => x
  | some _ => { x with tracked := true }.schedule now

/-! ### Room for retired ids -/

/-- Ids can be retired, by the settings and by the lineage that the file has. -/
structure Roomy (x : FileState) : Prop where
  config : 0 ≤ x.config.maxRetiredIds
  lineage : ∀ l, x.lineage = some l → l.capacity = x.config.maxRetiredIds

/-- With room for ids all declarations get theirs. -/
theorem Roomy.assign {x : FileState} (h : x.Roomy) (d : Document) :
    ∃ ids l, x.assign d = (.ok ids, l) ∧ l.capacity = x.config.maxRetiredIds ∧
      Lineage.Assigned (x.lineage.getD (.new d.fileId x.config.maxRetiredIds))
        (Outline.ofText d.content).declarations x.snapshot ids l := by
  have hcap : (x.lineage.getD (.new d.fileId x.config.maxRetiredIds)).capacity =
      x.config.maxRetiredIds := by
    cases hl : x.lineage with
    | none => rfl
    | some l => exact h.lineage l hl
  obtain ⟨ids, l, hassign, hassigned⟩ :=
    Lineage.assign_outline (hcap ▸ h.config) d.content x.snapshot
  exact ⟨ids, l, hassign, hassigned.capacity.trans hcap, hassigned⟩

/-- These are assigned by the rules. -/
theorem Roomy.assigned {x : FileState} (h : x.Roomy) {d : Document} {ids : List String}
    {l : Lineage} (ha : x.assign d = (.ok ids, l)) : l.capacity = x.config.maxRetiredIds ∧
      Lineage.Assigned (x.lineage.getD (.new d.fileId x.config.maxRetiredIds))
        (Outline.ofText d.content).declarations x.snapshot ids l := by
  obtain ⟨ids', l', ha', hassigned⟩ := h.assign d
  obtain ⟨rfl, rfl⟩ : ids' = ids ∧ l' = l := by simpa [ha] using ha'.symm
  exact hassigned

/-- And no pass is stranded. -/
theorem Roomy.not_stranded {x : FileState} (h : x.Roomy) {d : Document} {e : AssignError}
    {l : Lineage} : x.assign d ≠ (.error e, l) := by
  obtain ⟨ids, l', hok, -⟩ := h.assign d
  simp [hok]

/-! ### Operations -/

/-- The next version of a document, opened again. -/
def reopened (content : Text) (language : String) (d : Document) : Document :=
  { d with content := content, language := language, version := d.version + 1 }

/-- The next version of a document, with another content. -/
def updated (content : Text) (d : Document) : Document :=
  { d with content := content, version := d.version + 1 }

/-- The next version of a document, with a stretch of it replaced. -/
def edited (first last : Int) (text : Text) (d : Document) : Document :=
  let first := min first.toNat d.length
  let last := max first (min last.toNat d.length)
  { d with
    content := d.content.take first ++ text ++ d.content.drop last
    version := d.version + 1 }

/-- A notification arrives. -/
def receive (f : String) (now : Int) (x : FileState) : Notice → FileState
  | .documentAdded g => if g = f then x.observe now else x
  | .contentChanged g =>
    if g = f then if x.tracked then x.schedule now else x.observe now else x
  | .documentRemoved g => if g = f then { x.forget with edges := none, baseline := none } else x
  | .snapshotUpdated g => if g = f then x.rebuildEdges.recordChanges else x
  | .graphUpdated _ | .historyRecorded _ => x

/-- The open document is followed by another version. -/
def revise (f : String) (now : Int) (next : Document → Document) (x : FileState) : FileState :=
  match x.document with
  | none => x
  | some d => { x with document := some (next d) }.receive f now (.contentChanged f)

/-- The file is opened, or gets another version if it is open. -/
def openDocument (f : String) (now : Int) (x : FileState) (content : Text) (language : String)
    (version : Int) : FileState :=
  match x.document with
  | none =>
    { x with document := some ⟨f, content, language, version⟩ }.receive f now (.documentAdded f)
  | some _ => x.revise f now (reopened content language)

/-- What an operation does to the file `f` at the moment `now`. -/
def step (f : String) (now : Int) (x : FileState) : Session.Op → FileState
  | .openDocument g content language version =>
    if g = f then x.openDocument f now content language version else x
  | .update g content => if g = f then x.revise f now (updated content) else x
  | .edit g first last text => if g = f then x.revise f now (edited first last text) else x
  | .close g =>
    if g = f && x.document.isSome then
      { x with document := none }.receive f now (.documentRemoved f)
    else x
  | .plant d => if d.fileId = f then { x with document := some d } else x
  | .uproot g => if g = f then { x with document := none } else x
  | .publish n => x.receive f now n
  | .advance ms => x.passUntil (now + ms)
  | .flush => x.flush
  | .flushFile g => if g = f then x.flush else x
  | .start => x.observe now
  | .recompute g => if g = f then { x with due := none }.pass else x
  | .setFault fault => { x with fault := fault }
  | .dispose _ => x

/-! ### What is said about one file -/

/-- The graph has taken the edges of the snapshot. -/
def edgesNotices (f : String) (x : FileState) : List Notice :=
  match x.snapshot with
  | none => []
  | some _ => if x.fault = some .edges then [] else [.graphUpdated f]

/-- The history has recorded what the snapshot shows against the baseline. -/
def changesNotices (f : String) (x : FileState) : List Notice :=
  match x.snapshot with
  | none => []
  | some snapshot =>
    if x.fault = some .changes && x.baseline.isSome then []
    else (x.changesWith snapshot).map fun c => .historyRecorded ⟨0, f, snapshot.version, c⟩

/-- There is a new snapshot, and graph and history follow before the listener hears of it. -/
def snapshotNotices (f : String) (x : FileState) : List Notice :=
  x.edgesNotices f ++ x.rebuildEdges.changesNotices f ++ [.snapshotUpdated f]

/-- A new snapshot of a document is made. -/
def installNotices (f : String) (x : FileState) (d : Document) : List Notice :=
  if x.fault = some .outline then []
  else
    match x.assign d with
    | (.error _, _) => []
    | (.ok ids, lineage) =>
      { x with
        lineage := some lineage
        snapshot := some (.ofOutline d (Outline.ofText d.content) ids) }.snapshotNotices f

/-- A forced pass is made. -/
def passNotices (f : String) (x : FileState) : List Notice :=
  match x.supported with
  | none => []
  | some d =>
    if x.config.maxDocumentChars < d.length then []
    else
      match x.snapshot with
      | none => x.installNotices f d
      | some current => if d.version < current.version then [] else x.installNotices f d

/-- A scheduled pass is made. -/
def scheduledPassNotices (f : String) (x : FileState) : List Notice :=
  match x.document, x.snapshot with
  | some d, some current => if d.version = current.version then [] else x.passNotices f
  | _, _ => x.passNotices f

/-- The scheduled pass is made now. -/
def passNowNotices (f : String) (x : FileState) : List Notice :=
  { x with due := none }.scheduledPassNotices f

/-- A pass is scheduled; without a clock it is made at once. -/
def scheduleNotices (f : String) (x : FileState) : List Notice :=
  if x.clocked then [] else x.passNowNotices f

/-- A waiting pass is made now. -/
def flushNotices (f : String) (x : FileState) : List Notice :=
  if x.due.isSome then x.passNowNotices f else []

/-- A waiting pass is made if it is due by `target`. -/
def passUntilNotices (f : String) (target : Int) (x : FileState) : List Notice :=
  if x.due.any (· ≤ target) then x.passNowNotices f else []

/-- The indexer takes up the file. -/
def observeNotices (f : String) (x : FileState) : List Notice :=
  match x.supported with
  | none => []
  | some _ => { x with tracked := true }.scheduleNotices f

/-- The graph has dropped the file, and the listener hears that it was closed. -/
def removedNotices (f : String) (x : FileState) : List Notice :=
  (if x.edges.isSome then [.graphUpdated f] else []) ++ [.documentRemoved f]

/-- The document has changed. -/
def changedNotices (f : String) (x : FileState) : List Notice :=
  (if x.tracked then x.scheduleNotices f else x.observeNotices f) ++ [.contentChanged f]

/-- A notification arrives. -/
def receiveNotices (f : String) (x : FileState) (n : Notice) : List Notice :=
  if n.fileId = f then
    match n with
    | .documentAdded _ => x.observeNotices f ++ [n]
    | .contentChanged _ => x.changedNotices f
    | .documentRemoved _ => x.removedNotices f
    | .snapshotUpdated _ => x.snapshotNotices f
    | .graphUpdated _ | .historyRecorded _ => [n.plain]
  else []

/-- The open document is followed by another version. -/
def reviseNotices (f : String) (next : Document → Document) (x : FileState) : List Notice :=
  match x.document with
  | none => []
  | some d => { x with document := some (next d) }.changedNotices f

/-- The file is opened, or gets another version if it is open. -/
def openNotices (f : String) (x : FileState) (content : Text) (language : String)
    (version : Int) : List Notice :=
  match x.document with
  | none =>
    { x with document := some ⟨f, content, language, version⟩ }.observeNotices f ++
      [.documentAdded f]
  | some _ => x.reviseNotices f (reopened content language)

/-- What an operation at the moment `now` brings about for the file `f`. -/
def stepNotices (f : String) (now : Int) (x : FileState) : Session.Op → List Notice
  | .openDocument g content language version =>
    if g = f then x.openNotices f content language version else []
  | .update g content => if g = f then x.reviseNotices f (updated content) else []
  | .edit g first last text => if g = f then x.reviseNotices f (edited first last text) else []
  | .close g =>
    if g = f && x.document.isSome then { x with document := none }.removedNotices f else []
  | .publish n => x.receiveNotices f n
  | .advance ms => x.passUntilNotices f (now + ms)
  | .flush => x.flushNotices f
  | .flushFile g => if g = f then x.flushNotices f else []
  | .start => x.observeNotices f
  | .recompute g => if g = f then { x with due := none }.passNotices f else []
  | .plant _ | .uproot _ | .setFault _ | .dispose _ => []

/-! ### One part after the other -/

/-- What a subscriber does to the file about a notification. -/
def reaction (now : Int) (n : Notice) (x : FileState) (who : Subscriber) : FileState :=
  match n, who with
  | .documentAdded _, .indexer => x.observe now
  | .contentChanged _, .indexer => if x.tracked then x.schedule now else x.observe now
  | .documentRemoved _, .indexer => x.forget
  | .documentRemoved _, .graph => { x with edges := none }
  | .documentRemoved _, .history => { x with baseline := none }
  | .snapshotUpdated _, .graph => x.rebuildEdges
  | .snapshotUpdated _, .history => x.recordChanges
  | _, _ => x

/-- What is heard when a subscriber is told `n`: what it has to say, or `n` itself. -/
def answer (n : Notice) (x : FileState) (who : Subscriber) : List Notice :=
  match n, who with
  | .documentAdded f, .indexer => x.observeNotices f
  | .contentChanged f, .indexer =>
    if x.tracked then x.scheduleNotices f else x.observeNotices f
  | .documentRemoved f, .graph => if x.edges.isSome then [.graphUpdated f] else []
  | .snapshotUpdated f, .graph => x.edgesNotices f
  | .snapshotUpdated f, .history => x.changesNotices f
  | n, .listener => [n.plain]
  | _, _ => []

/-- What is heard when subscribers are told `n`, one after the other. -/
def answers (now : Int) (n : Notice) : List Subscriber → FileState → List Notice
  | [], _ => []
  | who :: whos, x => x.answer n who ++ answers now n whos (x.reaction now n who)

/-- Told to the three parts, a notification does to the file what it is there for.  Where the
listener stands makes no difference. -/
theorem foldl_reaction (now : Int) (n : Notice) {whos : List Subscriber}
    (hwhos : whos.filter (· ≠ .listener) = [.indexer, .graph, .history]) (x : FileState) :
    whos.foldl (reaction now n) x = x.receive n.fileId now n := by
  have hskip : whos.foldl (reaction now n) x =
      (whos.filter (· ≠ .listener)).foldl (reaction now n) x := by
    rw [List.foldl_filter]
    congr 1
    funext x who
    cases who with
    | listener => cases n <;> rfl
    | _ => rfl
  rw [hskip, hwhos]
  cases n <;> simp [reaction, receive, Notice.fileId]

/-- The listener comes last and hears what the three parts have said before. -/
theorem answers_eq (now : Int) (n : Notice) (x : FileState) :
    answers now n [.indexer, .graph, .history, .listener] x = x.receiveNotices n.fileId n := by
  unfold receiveNotices
  rw [if_pos rfl]
  cases n with
  | snapshotUpdated f =>
    exact (List.append_assoc (x.edgesNotices f) (x.rebuildEdges.changesNotices f) _).symm
  | _ => rfl

/-- What is said about other files does not matter. -/
theorem receive_of_ne {n : Notice} {f : String} (h : n.fileId ≠ f) (now : Int) (x : FileState) :
    x.receive f now n = x := by
  cases n with
  | graphUpdated | historyRecorded => rfl
  | _ => exact if_neg h

end FileState

/-- What a session knows about a file. -/
def Session.file (s : Session) (f : String) : FileState where
  config := s.config
  clocked := s.clocked
  fault := s.fault
  document := s.buffer.get? f
  due := s.timers.due? f
  tracked := f ∈ s.index.tracked
  snapshot := s.snapshot? f
  lineage := s.index.lineages.get? f
  edges := s.graph.files.get? f
  baseline := (s.history.ofFile f).baseline
  events := (s.history.eventsOf f).map fun e => (e.version, e.change)

namespace Session

/-! These are kept from `dsimp`, which would leave behind how the conditions of `if` are decided. -/

variable (s : Session) (f : String)

theorem file_config : (s.file f).config = s.config := (rfl)

theorem file_fault : (s.file f).fault = s.fault := (rfl)

theorem file_document : (s.file f).document = s.buffer.get? f := (rfl)

theorem file_tracked : (s.file f).tracked = decide (f ∈ s.index.tracked) := (rfl)

theorem file_snapshot : (s.file f).snapshot = s.snapshot? f := (rfl)

theorem file_due : (s.file f).due.isSome = s.timers.isPending f := (Timers.isPending_eq _ _).symm

theorem file_supported : (s.file f).supported =
    (s.buffer.get? f).filter fun d => s.config.isSupported d.language := (rfl)

end Session
end SymbolAtlas
