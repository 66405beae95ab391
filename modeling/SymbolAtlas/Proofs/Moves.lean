import Mathlib.Logic.Relation
import SymbolAtlas.Proofs.Calls
import SymbolAtlas.Proofs.Entries

/-!
# What an operation is made of

However an operation is carried out, it changes a session by small moves, each of one part of it
(`Session.Moves`).  A pass over a file comes to one of four ends (`Session.Passes`), and what is
done about a file is to wait or to make a pass (`Session.Tends`).

Some moves make something new: a snapshot, edges of the graph, an event, another document.  Each of
these is announced as soon as it is made; who is called hears of it, and what it does about it goes
on in the same way.  `Session.Unfolds s cs t` says that a session comes from `s` to `t` like this
and that `cs` are the calls on the way.  It holds of every operation and its calls
(`Session.unfolds_step`), so nobody is told of anything else, and nobody who cares is left out.

It follows that the calls find the session between two moves, and that the listener hears what it is
told in them (`Session.Follows`).  What all moves keep holds after every operation but disposal and
during every call.
-/

namespace SymbolAtlas

/-- Whether a notification is about documents. -/
def Notice.ofBuffer : Notice → Bool
  | .documentAdded _ | .documentRemoved _ | .contentChanged _ => true
  | .snapshotUpdated _ | .graphUpdated _ | .historyRecorded _ => false

namespace Session

/-- The session in which the lineage `l` is kept for the file of a document. -/
abbrev withLineage (s : Session) (d : Document) (l : Lineage) : Session :=
  { s with index := { s.index with lineages := s.index.lineages.put d.fileId l } }

/-- The session in which the snapshot of a document has taken its place. -/
abbrev withSnapshot (s : Session) (d : Document) (ids : List String) (l : Lineage) : Session :=
  { s with index := { s.index with
    lineages := s.index.lineages.put d.fileId l
    snapshots := s.index.snapshots.put d.fileId
      (Snapshot.ofOutline d (Outline.ofText d.content) ids) } }

/-- One small change of a session that is not disposed of. -/
inductive Moves : Session → Session → Prop
  | note (s : Session) (said : List Diagnostic) : Moves s { s with diagnostics := said }
  | hear (s : Session) (n : Notice) : Moves s { s with heard := s.heard ++ [n] }
  | cancel (s : Session) (f : String) : Moves s { s with timers := s.timers.cancel f }
  | schedule (s : Session) (f : String) :
      Moves s { s with timers := s.timers.schedule s.config.delay f }
  | goOff (s : Session) (timer : Timer) : Moves s { s with timers := s.timers.goOff timer }
  | setClock (s : Session) (now : Int) : Moves s { s with timers := s.timers.setClock now }
  | put (s : Session) (d : Document) : Moves s { s with buffer := s.buffer.put d }
  | remove (s : Session) (f : String) : Moves s { s with buffer := s.buffer.remove f }
  | track (s : Session) (f : String) : Moves s { s with index := s.index.track f }
  | forget (s : Session) (f : String) : Moves s { s with index := s.index.forget f }
  | strand (s : Session) {f : String} {d : Document} {e : AssignError} {l : Lineage}
      (hd : s.buffer.get? f = some d) (h : s.assignment d = (.error e, l)) :
      Moves s (s.withLineage d l)
  | install (s : Session) {f : String} {d : Document} {ids : List String} {l : Lineage}
      (hd : s.buffer.get? f = some d) (h : s.assignment d = (.ok ids, l)) :
      Moves s (s.withSnapshot d ids l)
  | replaceEdges (s : Session) {f : String} {snapshot : Snapshot}
      (h : s.snapshot? f = some snapshot) :
      Moves s { s with graph := s.graph.replace f snapshot.callEdges }
  | dropEdges (s : Session) (f : String) : Moves s { s with graph := s.graph.drop f }
  | history (s : Session) (h : History) : Moves s { s with history := h }
  | fault (s : Session) (fault : Option Fault) : Moves s { s with fault := fault }

/-- A session gets from one state to another by moves. -/
abbrev Reaches : Session → Session → Prop := Relation.ReflTransGen Moves

variable {s t u : Session} {cs ds : List Call} {f : String} {n : Notice}

/-! ### What passes come to -/

/-- A pass over the file `f` makes a snapshot of the document `d`: it is open in a supported
language, not too long, and newer than the snapshot there is.  A forced pass also takes the same
version again. -/
structure Passable (s : Session) (f : String) (forced : Bool) (d : Document) : Prop where
  document : s.buffer.get? f = some d
  language : s.config.isSupported d.language = true
  length : d.length ≤ s.config.maxDocumentChars
  version : ∀ c, s.snapshot? f = some c →
    c.version < d.version ∨ forced = true ∧ c.version = d.version

/-- What a pass over the file `f` comes to, with the calls made on the way. -/
inductive Passes (f : String) (forced : Bool) (s : Session) : List Call → Session → Prop
  /-- There is nothing to do, or nothing can be done; this may be noted. -/
  | idle (said : List Diagnostic) : Passes f forced s [] { s with diagnostics := said }
  /-- The document is not there any more. -/
  | dropped (said : List Diagnostic) :
      Passes f forced s [] ({ s with diagnostics := said }.forget f)
  /-- No ids could be assigned, but the lineage is kept. -/
  | stranded {d : Document} {e : AssignError} {l : Lineage} (hd : s.Passable f forced d)
      (h : s.assignment d = (.error e, l)) : Passes f forced s [] (s.withLineage d l)
  /-- A snapshot is made, and everybody is told. -/
  | installed {d : Document} {ids : List String} {l : Lineage} (hd : s.Passable f forced d)
      (hfault : s.fault ≠ some .outline) (h : s.assignment d = (.ok ids, l)) :
      Passes f forced s ((s.withSnapshot d ids l).announceSnapshotCalls d.fileId)
        ((s.withSnapshot d ids l).announceSnapshot d.fileId)

/-- A pass over such a document ends in one of these ways. -/
theorem passes_install {forced : Bool} {d : Document} (hd : s.Passable f forced d) :
    Passes f forced s (s.installCalls d) (s.install d).1 := by
  unfold installCalls install
  split_ifs with hfault
  · exact .idle s.diagnostics
  · rcases h : s.assignment d with ⟨e | ids, l⟩
    · exact .stranded hd h
    · exact .installed hd hfault h

/-- A forced pass, and one that is not forced unless the version is there already. -/
theorem passes_pass {forced : Bool} (hforced : forced = false → ∀ d c, s.buffer.get? f = some d →
      s.snapshot? f = some c → d.version ≠ c.version) :
    Passes f forced s (s.passCalls f) (s.pass f).1 := by
  unfold passCalls pass
  cases hopen : (s.buffer.get? f).filter fun d => s.config.isSupported d.language with
  | none =>
    dsimp only
    split_ifs
    · exact .dropped _
    · exact .idle s.diagnostics
  | some d =>
    obtain ⟨hd, hlanguage⟩ := Option.filter_eq_some_iff.mp hopen
    dsimp only
    split_ifs with hlong
    · exact .idle _
    have hlength := Int.not_lt.mp hlong
    cases hc : s.snapshot? f with
    | none => exact passes_install ⟨hd, hlanguage, hlength, by simp [hc]⟩
    | some current =>
      dsimp only
      split_ifs with hold
      · exact .idle _
      · refine passes_install ⟨hd, hlanguage, hlength, fun c hc' => ?_⟩
        obtain rfl := Option.some.inj (hc.symm.trans hc')
        obtain hlt | heq := Int.lt_or_eq_of_le (Int.not_lt.mp hold)
        · exact .inl hlt
        · refine .inr ⟨?_, heq⟩
          cases forced with
          | true => rfl
          | false => exact absurd heq.symm (hforced rfl d current hd hc)

/-- A scheduled pass finds the snapshot up to date, or it is a pass. -/
theorem scheduledPass_cases (s : Session) (f : String) :
    (s.scheduledPassCalls f = [] ∧
      (∃ d c, s.buffer.get? f = some d ∧ s.snapshot? f = some c ∧ d.version = c.version) ∧
      ∃ said, s.scheduledPass f = { s with diagnostics := said }) ∨
      s.scheduledPassCalls f = s.passCalls f ∧ s.scheduledPass f = (s.pass f).1 ∧
        ∀ d c, s.buffer.get? f = some d → s.snapshot? f = some c → d.version ≠ c.version := by
  unfold scheduledPassCalls scheduledPass
  cases hd : s.buffer.get? f with
  | none => exact Or.inr ⟨rfl, rfl, by simp⟩
  | some d =>
    cases hc : s.snapshot? f with
    | none => exact Or.inr ⟨rfl, rfl, by simp⟩
    | some c =>
      dsimp only
      split_ifs with hversion
      · exact Or.inl ⟨rfl, ⟨d, c, rfl, rfl, hversion⟩, _, rfl⟩
      · exact Or.inr ⟨rfl, rfl, by simpa using hversion⟩

/-- A scheduled pass is one that is not forced. -/
theorem passes_scheduledPass (s : Session) (f : String) :
    Passes f false s (s.scheduledPassCalls f) (s.scheduledPass f) := by
  rcases scheduledPass_cases s f with ⟨hcalls, -, said, h⟩ | ⟨hcalls, h, hversion⟩
  · rw [hcalls, h]
    exact .idle said
  · rw [hcalls, h]
    exact passes_pass fun _ => hversion

/-! ### What is done about a file -/

/-- From `s` to `t` timers may change, and whether the file `f` is tracked. -/
inductive Nudges (f : String) (s : Session) : Session → Prop
  | mk (timers : Timers) (tracked : List String)
      (hreaches : Reaches s { s with
        timers := timers, index := { s.index with tracked := tracked } })
      (htracked : ∀ g, g ≠ f → (g ∈ tracked ↔ g ∈ s.index.tracked)) :
      Nudges f s { s with timers := timers, index := { s.index with tracked := tracked } }

/-- A change of the timers is a nudge. -/
theorem nudges_timers (f : String) {timers : Timers} (hm : Moves s { s with timers := timers }) :
    Nudges f s { s with timers := timers } :=
  .mk timers s.index.tracked (.single hm) fun _ _ => Iff.rfl

/-- What is done about the file `f`: it is left to wait, or a pass is made now. -/
inductive Tends (f : String) (s : Session) : List Call → Session → Prop
  | waits {t : Session} (h : Nudges f s t) : Tends f s [] t
  | passes {t u : Session} {cs : List Call} (h : Nudges f s t) (hp : Passes f false t cs u) :
      Tends f s cs u

theorem tends_refl (f : String) (s : Session) : Tends f s [] s :=
  .waits (.mk s.timers s.index.tracked .refl fun _ _ => Iff.rfl)

/-- Scheduling a pass tends to the file. -/
theorem tends_schedule (s : Session) (f : String) :
    Tends f s (s.scheduleCalls f) (s.schedule f) := by
  unfold scheduleCalls schedule
  split_ifs
  · exact .waits (nudges_timers f (.schedule s f))
  · exact .passes (nudges_timers f (.cancel s f)) (passes_scheduledPass _ f)

/-- So does making it now. -/
theorem tends_flushFile (s : Session) (f : String) :
    Tends f s (s.flushFileCalls f) (s.flushFile f) := by
  unfold flushFileCalls flushFile
  split_ifs
  · exact .passes (nudges_timers f (.cancel s f)) (passes_scheduledPass _ f)
  · exact tends_refl f s

/-- Whether the file is tracked is one more thing that changes. -/
theorem Nudges.track (h : Nudges f { s with index := s.index.track f } t) : Nudges f s t := by
  have htrack : s.index.track f = { s.index with tracked := (s.index.track f).tracked } := by
    unfold Index.track
    split_ifs <;> rfl
  have hothers : ∀ g, g ≠ f → (g ∈ (s.index.track f).tracked ↔ g ∈ s.index.tracked) := by
    intro g hg
    unfold Index.track
    split_ifs <;> simp [hg]
  have hfirst := Moves.track s f
  rw [htrack] at hfirst h
  obtain ⟨timers, tracked, hreaches, htracked⟩ := h
  exact .mk timers tracked (.head hfirst hreaches) fun g hg =>
    (htracked g hg).trans (hothers g hg)

/-- Whoever tends to a file may track it first. -/
theorem Tends.track (h : Tends f { s with index := s.index.track f } cs t) : Tends f s cs t := by
  cases h with
  | waits h => exact .waits h.track
  | passes h hp => exact .passes h.track hp

/-- And so does taking up its document. -/
theorem tends_observe (s : Session) (f : String) : Tends f s (s.observeCalls f) (s.observe f) := by
  unfold observeCalls observe
  cases (s.buffer.get? f).filter fun d => s.config.isSupported d.language with
  | none => exact tends_refl f s
  | some d => exact (tends_schedule _ f).track

/-- The indexer is told that a document has changed. -/
theorem tends_changed (s : Session) (f : String) :
    Tends f s (receiveCalls (.contentChanged f) s .indexer) (receiveChanged f s .indexer) := by
  dsimp only [receiveCalls, receiveChanged]
  split_ifs
  · exact tends_schedule s f
  · exact tends_observe s f

/-! ### What is made -/

/-- From `s` to `t` something new is made, and `n` is what there is to say about it. -/
inductive Makes : Notice → Session → Session → Prop
  | opened (s : Session) (d : Document) (f : String) :
      Makes (.documentAdded f) s { s with buffer := s.buffer.put d }
  | changed (s : Session) (d : Document) (f : String) :
      Makes (.contentChanged f) s { s with buffer := s.buffer.put d }
  | closed (s : Session) (f : String) :
      Makes (.documentRemoved f) s { s with buffer := s.buffer.remove f }
  | installed {s : Session} {f : String} {d : Document} {ids : List String} {l : Lineage}
      (hd : s.buffer.get? f = some d) (h : s.assignment d = (.ok ids, l)) :
      Makes (.snapshotUpdated d.fileId) s (s.withSnapshot d ids l)
  | linked {s : Session} {f : String} {c : Snapshot} (h : s.snapshot? f = some c) :
      Makes (.graphUpdated f) s { s with graph := s.graph.replace f c.callEdges }
  | unlinked (s : Session) (f : String) :
      Makes (.graphUpdated f) s { s with graph := s.graph.drop f }
  | recorded (s : Session) (f : String) (version : Int) (c : Change) :
      Makes (.historyRecorded (s.history.nextEvent f version c)) s
        { s with history := s.history.add (s.history.nextEvent f version c) }

/-- What is made is made by one move. -/
theorem Makes.moves (h : Makes n s t) : Moves s t := by
  cases h with
  | opened | changed => exact .put s _
  | closed => exact .remove s _
  | installed hd h => exact .install s hd h
  | linked h => exact .replaceEdges s h
  | unlinked => exact .dropEdges s _
  | recorded => exact .history s _

/-- It is not heard of yet. -/
theorem Makes.heard (h : Makes n s t) : t.heard = s.heard := by
  cases h <;> rfl

/-- From `s` to `t` nothing new is made: the graph stays, no event is recorded, and the only
snapshots are those there were. -/
structure Quiet (s t : Session) : Prop where
  reaches : Reaches s t
  heard : t.heard = s.heard
  graph : t.graph = s.graph
  recorded : t.history.recorded = s.history.recorded
  snapshots : ∀ f c, t.snapshot? f = some c → s.snapshot? f = some c

theorem quiet_refl (s : Session) : Quiet s s := ⟨.refl, rfl, rfl, rfl, fun _ _ h => h⟩

/-- Documents, timers and faults make nothing, nor does what is noted. -/
theorem Quiet.of_move (h : Moves s t) (hheard : t.heard = s.heard) (hgraph : t.graph = s.graph)
    (hhistory : t.history = s.history) (hindex : t.index.snapshots = s.index.snapshots) :
    Quiet s t := by
  refine ⟨.single h, hheard, hgraph, by rw [hhistory], fun f c hc => ?_⟩
  rwa [snapshot?, hindex] at hc

/-- Baselines may change quietly. -/
theorem quiet_history (s : Session) {h : History} (hh : h.recorded = s.history.recorded) :
    Quiet s { s with history := h } :=
  ⟨.single (.history s h), rfl, rfl, hh, fun _ _ hc => hc⟩

/-- A file is forgotten quietly. -/
theorem quiet_forget (s : Session) (f : String) : Quiet s (s.forget f) := by
  have hreaches : Reaches s (s.forget f) :=
    .tail (.single (.cancel s f)) (.forget { s with timers := s.timers.cancel f } f)
  refine ⟨hreaches, rfl, rfl, rfl, fun g c hc => ?_⟩
  have hkept : (s.index.snapshots.erase f).get? g = some c := hc
  rw [Entries.get?_erase] at hkept
  split_ifs at hkept
  exact hkept

/-! ### Announcing what is made -/

/-- From `s` to `t`, with the calls `cs` on the way: whatever is made is published at once.  Who is
called hears of it, and what it does about it unfolds in turn. -/
inductive Unfolds : Session → List Call → Session → Prop
  | quiet {s t : Session} (h : Quiet s t) : Unfolds s [] t
  | made {n : Notice} {s t : Session} {inner : Session → Subscriber → List Call} (h : Makes n s t)
      (hinner : ∀ u who, Unfolds (u.hear n who) (inner u who) (receive n u who)) :
      Unfolds s (t.deliverCalls n (receive n) inner) (t.publish n)
  | trans {s t u : Session} {cs ds : List Call} (h : Unfolds s cs t) (h' : Unfolds t ds u) :
      Unfolds s (cs ++ ds) u

namespace Unfolds

theorem refl (s : Session) : Unfolds s [] s := .quiet (quiet_refl s)

/-- Something quiet may come first. -/
theorem after (h : Unfolds t cs u) (ht : Quiet s t) : Unfolds s cs u := (quiet ht).trans h

/-- Items are gone through one after the other. -/
theorem foldl {α : Type} {step : Session → α → Session} {calls : Session → α → List Call}
    (h : ∀ s a, Unfolds s (calls s a) (step s a)) (items : List α) (s : Session) :
    Unfolds s (callsOver step calls items s) (items.foldl step s) := by
  induction items generalizing s with
  | nil => exact refl s
  | cons a items ih => exact (h s a).trans (ih (step s a))

end Unfolds

/-- New edges are announced. -/
theorem unfolds_rebuildEdges (s : Session) (f : String) :
    Unfolds s (s.rebuildEdgesCalls f) (s.rebuildEdges f) := by
  unfold rebuildEdgesCalls rebuildEdges
  cases h : s.snapshot? f with
  | none => exact .refl s
  | some snapshot =>
    dsimp only
    split_ifs
    · exact .refl s
    · exact .made (.linked h) fun _ _ => .refl _

/-- An event is announced. -/
theorem unfolds_recordChange (f : String) (version : Int) (s : Session) (c : Change) :
    Unfolds s (recordChangeCalls f version s c) (recordChange f version s c) :=
  .made (.recorded s f version c) fun _ _ => .refl _

/-- So are many, one by one. -/
theorem unfolds_recordChanges (s : Session) (f : String) :
    Unfolds s (s.recordChangesCalls f) (s.recordChanges f) := by
  have hknow : (s.history.know f).recorded = s.history.recorded := by
    unfold History.know
    split_ifs <;> rfl
  unfold recordChangesCalls recordChanges
  cases s.snapshot? f with
  | none => exact .refl s
  | some snapshot =>
    dsimp only
    split_ifs
    · exact .quiet (quiet_history s hknow)
    · exact (Unfolds.foldl (unfolds_recordChange f snapshot.version) _ _).after
        (quiet_history s hknow)

/-- What becomes of a new snapshot is announced. -/
theorem unfolds_receiveSnapshot (f : String) (s : Session) (who : Subscriber) :
    Unfolds (s.hear (.snapshotUpdated f) who) (receiveSnapshotCalls f s who)
      (receiveSnapshot f s who) := by
  cases who with
  | indexer | listener => exact .refl _
  | graph => exact unfolds_rebuildEdges s f
  | history => exact unfolds_recordChanges s f

/-- A pass announces its snapshot, if it makes one. -/
theorem Passes.unfolds {forced : Bool} (h : Passes f forced s cs t) : Unfolds s cs t := by
  cases h with
  | idle said => exact .quiet (.of_move (.note s said) rfl rfl rfl rfl)
  | dropped said =>
    exact (Unfolds.quiet (quiet_forget _ f)).after (.of_move (.note s said) rfl rfl rfl rfl)
  | stranded hd h => exact .quiet (.of_move (.strand s hd.document h) rfl rfl rfl rfl)
  | installed hd hfault h => exact .made (.installed hd.document h) (unfolds_receiveSnapshot _)

/-- A nudge says nothing. -/
theorem Nudges.quiet (h : Nudges f s t) : Quiet s t := by
  cases h with
  | mk timers tracked hreaches htracked => exact ⟨hreaches, rfl, rfl, rfl, fun _ _ hc => hc⟩

/-- Tending to a file announces what its pass makes. -/
theorem Tends.unfolds (h : Tends f s cs t) : Unfolds s cs t := by
  cases h with
  | waits h => exact .quiet h.quiet
  | passes h hp => exact hp.unfolds.after h.quiet

/-- Dropped edges are announced. -/
theorem unfolds_dropEdges (s : Session) (f : String) :
    Unfolds s (s.dropEdgesCalls f) (s.dropEdges f) := by
  unfold dropEdgesCalls dropEdges
  split_ifs
  · exact .made (.unlinked s f) fun _ _ => .refl _
  · exact .refl s

/-- **Whoever is told something**, what it does about it unfolds. -/
theorem unfolds_receive (n : Notice) (s : Session) (who : Subscriber) :
    Unfolds (s.hear n who) (receiveCalls n s who) (receive n s who) := by
  cases n with
  | documentAdded f =>
    cases who with
    | indexer => exact (tends_observe s f).unfolds
    | graph | history | listener => exact .refl _
  | contentChanged f =>
    cases who with
    | indexer => exact (tends_changed s f).unfolds
    | graph | history | listener => exact .refl _
  | documentRemoved f =>
    cases who with
    | indexer => exact .quiet (quiet_forget s f)
    | graph => exact unfolds_dropEdges s f
    | history =>
      refine .quiet (quiet_history s ?_)
      unfold History.forgetBaseline
      split_ifs <;> rfl
    | listener => exact .refl _
  | snapshotUpdated f => exact unfolds_receiveSnapshot f s who
  | graphUpdated f | historyRecorded e => exact .refl _

/-- Passes are made one after the other as they are due. -/
theorem unfolds_passUntil (target : Int) (fuel : Nat) (s : Session) :
    Unfolds s (passUntilCalls target fuel s) (passUntil target fuel s) := by
  induction fuel generalizing s with
  | zero => exact .refl s
  | succ fuel ih =>
    unfold passUntilCalls passUntil
    cases s.timers.next? target with
    | none => exact .refl s
    | some timer =>
      exact ((passes_scheduledPass _ timer.key).unfolds.trans (ih _)).after
        (.of_move (.goOff s timer) rfl rfl rfl rfl)

/-! ### Documents -/

/-- What an operation on documents comes to: something is noted, or the buffer changes and what
happened is published. -/
inductive Buffers (s : Session) : List Call → Session → Prop
  | notes (said : List Diagnostic) : Buffers s [] { s with diagnostics := said }
  | keeps {b : Buffer} (h : Moves s { s with buffer := b }) : Buffers s [] { s with buffer := b }
  | tells {b : Buffer} {n : Notice} (h : Makes n s { s with buffer := b })
      (hn : n.ofBuffer = true) :
      Buffers s ({ s with buffer := b }.publishCalls n) ({ s with buffer := b }.publish n)

/-- What the buffer says is published if it is attached. -/
theorem buffers_publishFromBuffer {b : Buffer} (h : Makes n s { s with buffer := b })
    (hn : n.ofBuffer = true) :
    Buffers s ({ s with buffer := b }.publishFromBufferCalls n)
      ({ s with buffer := b }.publishFromBuffer n) := by
  unfold publishFromBufferCalls publishFromBuffer
  split_ifs
  · exact .tells h hn
  · exact .keeps h.moves

/-- Whether an operation is about documents. -/
def Op.buffers : Op → Bool
  | .openDocument .. | .update .. | .edit .. | .close _ | .plant _ | .uproot _ => true
  | _ => false

/-- This is all that operations on documents do. -/
theorem buffers_step (s : Session) {op : Op} (hop : op.buffers = true) :
    Buffers s (s.calls op) (s.step op).1 := by
  cases op with
  | openDocument f content language version =>
    simp only [calls, step, openDocument, Buffer.opening]
    cases s.buffer.get? f with
    | none => exact buffers_publishFromBuffer (.opened s _ f) rfl
    | some d => exact buffers_publishFromBuffer (.changed s _ f) rfl
  | update f content =>
    simp only [calls, step, update]
    cases s.buffer.updating f content with
    | none => exact .notes _
    | some d => exact buffers_publishFromBuffer (.changed s d _) rfl
  | edit f first last text =>
    simp only [calls, step, edit]
    cases s.buffer.editing f first last text with
    | none => exact .notes _
    | some d => exact buffers_publishFromBuffer (.changed s d _) rfl
  | close f =>
    simp only [calls, step, close]
    cases s.buffer.get? f with
    | none => exact .notes s.diagnostics
    | some d => exact buffers_publishFromBuffer (.closed s f) rfl
  | plant d => exact .keeps (.put s d)
  | uproot f => exact .keeps (.remove s f)
  | _ => cases hop

/-- A change of the buffer that is published unfolds. -/
theorem Buffers.unfolds (h : Buffers s cs t) : Unfolds s cs t := by
  cases h with
  | notes said => exact .quiet (.of_move (.note s said) rfl rfl rfl rfl)
  | keeps h => exact .quiet (.of_move h rfl rfl rfl rfl)
  | tells h hn => exact .made h (unfolds_receive _)

/-! ### Operations -/

/-- Whether an operation is a disposal. -/
def Op.disposes : Op → Bool
  | .dispose _ => true
  | _ => false

/-- Whether an operation is to publish something. -/
def Op.publishes : Op → Bool
  | .publish _ => true
  | _ => false

/-- **The calls of an operation are those that announce what it makes**, unless it is a disposal or
asks for something to be published.  Then there are no calls, or those of that delivery, and what
comes out of them unfolds as well (`unfolds_receive`). -/
theorem unfolds_step (s : Session) {op : Op} (hop : op.disposes = false)
    (hpublish : op.publishes = false) : Unfolds s (s.calls op) (s.step op).1 := by
  cases op with
  | openDocument | update | edit | close | plant | uproot => exact (buffers_step s rfl).unfolds
  | publish n => cases hpublish
  | advance ms =>
    have hpasses := unfolds_passUntil (s.timers.now + ms) s.timers.waiting.length s
    have hclock : Unfolds _ [] (s.advance ms) :=
      .quiet (.of_move (.setClock (passUntil _ _ s) _) rfl rfl rfl rfl)
    have hboth := hpasses.trans hclock
    rwa [List.append_nil] at hboth
  | flush => exact .foldl (fun s f => (tends_flushFile s f).unfolds) s.timers.keys s
  | flushFile f => exact (tends_flushFile s f).unfolds
  | start => exact .foldl (fun s f => (tends_observe s f).unfolds) s.buffer.files s
  | recompute f =>
    have hpass : Passes f true _ _ (s.recompute f).1 := passes_pass (by simp)
    exact hpass.unfolds.after (.of_move (.cancel s f) rfl rfl rfl rfl)
  | setFault fault => exact .quiet (.of_move (.fault s fault) rfl rfl rfl rfl)
  | dispose part => cases hop

/-! ### Moves and what is heard -/

/-- From `s` to `t` by moves, with the calls `cs` on the way. -/
structure Follows (s : Session) (cs : List Call) (t : Session) : Prop where
  reaches : Reaches s t
  calls : ∀ c ∈ cs, Reaches s c.session
  /-- The listener hears what it is called about, and nothing else. -/
  heard : t.heard = s.heard ++ told cs

namespace Follows

/-- Moves without a word. -/
theorem silent (h : Reaches s t) (hheard : t.heard = s.heard) : Follows s [] t :=
  ⟨h, by simp, by simp [told, hheard]⟩

/-- One course of moves after the other. -/
theorem trans (h : Follows s cs t) (h' : Follows t ds u) : Follows s (cs ++ ds) u := by
  refine ⟨h.reaches.trans h'.reaches, fun c hc => ?_, ?_⟩
  · rcases List.mem_append.mp hc with hc | hc
    · exact h.calls c hc
    · exact h.reaches.trans (h'.calls c hc)
  · rw [h'.heard, h.heard, told, told, told, List.filter_append, List.map_append,
      List.append_assoc]

/-- Who is called hears of it first. -/
theorem call {who : Subscriber} (h : Follows (s.hear n who) cs t) :
    Follows s (⟨who, n, s⟩ :: cs) t := by
  have hfirst : Follows s [⟨who, n, s⟩] (s.hear n who) := by
    cases who with
    | listener => exact ⟨.single (.hear s n), by simp [Relation.ReflTransGen.refl], rfl⟩
    | _ => exact ⟨.refl, by simp [Relation.ReflTransGen.refl], by simp [told, hear]⟩
  exact hfirst.trans h

/-- Something is delivered. -/
theorem deliver {inner : Session → Subscriber → List Call}
    (h : ∀ u who, Follows (u.hear n who) (inner u who) (receive n u who)) (s : Session) :
    Follows s (s.deliverCalls n (receive n) inner) (s.publish n) := by
  have hfold : ∀ (whos : List Subscriber) (s : Session), Follows s
      (callsOver (receive n) (fun s who => ⟨who, n, s⟩ :: inner s who) whos s)
      (whos.foldl (receive n) s) := by
    intro whos
    induction whos with
    | nil => exact fun s => .silent .refl rfl
    | cons who whos ih => exact fun s => (h s who).call.trans (ih _)
  exact hfold (s.audience n) s

end Follows

/-- What unfolds is made of moves, with its calls between them. -/
theorem Unfolds.follows (h : Unfolds s cs t) : Follows s cs t := by
  induction h with
  | quiet h => exact .silent h.reaches h.heard
  | made h _ ih =>
    exact (Follows.silent (.single h.moves) h.heard).trans (.deliver ih _)
  | trans _ _ ih ih' => exact ih.trans ih'

theorem Unfolds.reaches (h : Unfolds s cs t) : Reaches s t := h.follows.reaches

/-- Whoever is told something makes moves. -/
theorem reaches_receive (n : Notice) (s : Session) (who : Subscriber) :
    Reaches s (receive n s who) := (unfolds_receive n s who).follows.call.reaches

/-- Who does not care does nothing. -/
theorem receive_of_deaf {who : Subscriber} (h : who.listensTo n.topic = false) (s : Session) :
    receive n s who = s := by
  cases n <;> cases who <;> first | rfl | cases h

/-- It makes no difference to tell everybody. -/
theorem publish_eq_foldl (s : Session) (n : Notice) :
    s.publish n = s.subscribers.foldl (receive n) s := by
  rw [publish, deliver, Registry.deliver, List.foldl_filter]
  congr 1
  funext t who
  split_ifs with h
  · rfl
  · exact (receive_of_deaf (Bool.eq_false_iff.mpr h) t).symm

/-- A new snapshot is told to everybody in the same way. -/
theorem announceSnapshot_eq_foldl (s : Session) (f : String) :
    s.announceSnapshot f = s.subscribers.foldl (receiveSnapshot f) s :=
  publish_eq_foldl s (.snapshotUpdated f)

/-- So is everything else that is published. -/
theorem follows_publish (s : Session) (n : Notice) : Follows s (s.publishCalls n) (s.publish n) :=
  .deliver (fun u who => (unfolds_receive n u who).follows) s

/-- **Every operation but disposal is made of moves**, and its calls find the session between
them. -/
theorem follows_step (s : Session) {op : Op} (hop : op.disposes = false) :
    Follows s (s.calls op) (s.step op).1 := by
  cases op with
  | publish n => exact follows_publish s n
  | dispose part => cases hop
  | _ => exact (unfolds_step s rfl rfl).follows

theorem Moves.config (h : Moves s t) : t.config = s.config := by
  cases h <;> rfl

theorem config_of_reaches (h : Reaches s t) : t.config = s.config := by
  induction h with
  | refl => rfl
  | tail _ hm ih => exact hm.config.trans ih

/-- An operation leaves the settings alone. -/
theorem config_step (s : Session) {op : Op} (hop : op.disposes = false) :
    (s.step op).1.config = s.config := config_of_reaches (follows_step s hop).reaches

theorem Moves.clocked (h : Moves s t) : t.clocked = s.clocked := by
  cases h <;> rfl

/-- A clock neither comes nor goes. -/
theorem clocked_of_reaches (h : Reaches s t) : t.clocked = s.clocked := by
  induction h with
  | refl => rfl
  | tail _ hm ih => exact hm.clocked.trans ih

end Session
end SymbolAtlas
