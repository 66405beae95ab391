import Mathlib.Data.List.Perm.Basic
import SymbolAtlas.Proofs.Passing

/-!
# Sessions that agree

Two sessions agree if they hold the same documents and have made the same of them, whatever their
listeners have heard and in whatever order their subscribers are registered (`Session.Agrees`).  If
they are compared with their clocks, the same passes wait in both as well.

A pass leads from sessions that agree to sessions that agree (`Agrees.pass`), and so does closing a
document (`Agrees.removed`).  Subscribers are told in two different orders then; this makes no
difference since what any two of them do can be done in either order (`foldl_perm`).
-/

namespace SymbolAtlas

/-- Steps that can be taken in either order, up to a relation that every step keeps, can be taken in
any order. -/
theorem foldl_perm {σ α : Type} {R : σ → σ → Prop} (hR : Equivalence R) {step : σ → α → σ}
    (hstep : ∀ s t a, R s t → R (step s a) (step t a))
    (hcomm : ∀ s a b, R (step (step s a) b) (step (step s b) a)) {items items' : List α}
    (h : items.Perm items') {s t : σ} (hst : R s t) :
    R (items.foldl step s) (items'.foldl step t) := by
  induction h generalizing s t with
  | nil => exact hst
  | cons a _ ih => exact ih (hstep s t a hst)
  | swap a b rest =>
    refine List.foldl_rel (hR.trans (hcomm s b a) ?_) fun c _ x y hxy => hstep x y c hxy
    exact hstep _ _ b (hstep s t a hst)
  | trans _ _ ih ih' => exact hR.trans (ih hst) (ih' (hR.refl t))

namespace Session

/-- Two sessions know the same; if they are compared with their clocks, the same waits in both. -/
structure Agrees (timed : Bool) (s t : Session) : Prop where
  config : s.config = t.config
  buffer : s.buffer = t.buffer
  subscribers : s.subscribers.Perm t.subscribers
  index : s.index = t.index
  graph : s.graph = t.graph
  history : s.history = t.history
  fault : s.fault = t.fault
  clock : timed = true → s.clocked = t.clocked ∧ s.timers = t.timers

namespace Agrees

variable {timed : Bool} {s t u : Session}

theorem refl (s : Session) : Agrees timed s s :=
  ⟨rfl, rfl, .refl _, rfl, rfl, rfl, rfl, fun _ => ⟨rfl, rfl⟩⟩

theorem symm (h : Agrees timed s t) : Agrees timed t s :=
  ⟨h.config.symm, h.buffer.symm, h.subscribers.symm, h.index.symm, h.graph.symm, h.history.symm,
    h.fault.symm, fun ht => ⟨(h.clock ht).1.symm, (h.clock ht).2.symm⟩⟩

theorem trans (h : Agrees timed s t) (h' : Agrees timed t u) : Agrees timed s u :=
  ⟨h.config.trans h'.config, h.buffer.trans h'.buffer, h.subscribers.trans h'.subscribers,
    h.index.trans h'.index, h.graph.trans h'.graph, h.history.trans h'.history,
    h.fault.trans h'.fault,
    fun ht => ⟨(h.clock ht).1.trans (h'.clock ht).1, (h.clock ht).2.trans (h'.clock ht).2⟩⟩

theorem equivalence (timed : Bool) : Equivalence (Agrees timed) := ⟨refl, symm, trans⟩

theorem snapshot? (h : Agrees timed s t) (f : String) : s.snapshot? f = t.snapshot? f := by
  rw [Session.snapshot?, h.index, Session.snapshot?]

/-- The document that a pass over a file reads. -/
theorem supported (h : Agrees timed s t) (f : String) :
    (s.buffer.get? f).filter (fun d => s.config.isSupported d.language) =
      (t.buffer.get? f).filter fun d => t.config.isSupported d.language := by
  rw [h.buffer, h.config]

/-! ### What is said -/

/-- What the listener hears makes no difference. -/
theorem heard (s : Session) (heard : List Notice) : Agrees timed s { s with heard := heard } :=
  ⟨rfl, rfl, .refl _, rfl, rfl, rfl, rfl, fun _ => ⟨rfl, rfl⟩⟩

/-- It makes no difference what the listener has heard. -/
theorem hear (s : Session) (n : Notice) (who : Subscriber) : Agrees timed s (s.hear n who) := by
  cases who with
  | listener => exact heard s _
  | indexer | graph | history => exact refl s

/-- Nor what is announced to it. -/
theorem announce (s : Session) (n : Notice) : Agrees timed s (s.announce n) := by
  rw [announce_eq]
  exact heard s _

/-- Nor what is noted. -/
theorem note (h : Agrees timed s t) (d d' : Diagnostic) : Agrees timed (s.note d) (t.note d') :=
  ⟨h.config, h.buffer, h.subscribers, h.index, h.graph, h.history, h.fault, h.clock⟩

/-! ### One part at a time -/

theorem setBuffer (h : Agrees timed s t) {b b' : Buffer} (hb : b = b') :
    Agrees timed { s with buffer := b } { t with buffer := b' } :=
  { h with buffer := hb }

theorem setIndex (h : Agrees timed s t) {index index' : Index} (hindex : index = index') :
    Agrees timed { s with index := index } { t with index := index' } :=
  { h with index := hindex }

theorem setGraph (h : Agrees timed s t) {graph graph' : CallGraph} (hgraph : graph = graph') :
    Agrees timed { s with graph := graph } { t with graph := graph' } :=
  { h with graph := hgraph }

theorem setHistory (h : Agrees timed s t) {history history' : History}
    (hhistory : history = history') :
    Agrees timed { s with history := history } { t with history := history' } :=
  { h with history := hhistory }

theorem setTimers (h : Agrees timed s t) {timers timers' : Timers}
    (htimers : timed = true → timers = timers') :
    Agrees timed { s with timers := timers } { t with timers := timers' } :=
  { h with clock := fun ht => ⟨(h.clock ht).1, htimers ht⟩ }

theorem cancel (h : Agrees timed s t) (f : String) :
    Agrees timed { s with timers := s.timers.cancel f } { t with timers := t.timers.cancel f } :=
  h.setTimers fun ht => by rw [(h.clock ht).2]

/-! ### Following a snapshot -/

/-- The graph takes the edges of a snapshot, which somebody may hear of. -/
theorem rebuildEdges_of {f : String} {c : Snapshot} (hc : s.snapshot? f = some c) :
    Agrees timed (s.rebuildEdges f) { s with graph := s.graphAfter f c } := by
  obtain ⟨heard', heq⟩ := rebuildEdges_eq hc
  rw [heq]
  exact (heard { s with graph := s.graphAfter f c } heard').symm

/-- Recording changes the history alone. -/
theorem recordChanges_of {f : String} {c : Snapshot} (hc : s.snapshot? f = some c) :
    Agrees timed (s.recordChanges f) { s with history := s.historyAfter f c } := by
  obtain ⟨heard', heq⟩ := recordChanges_eq hc
  rw [heq]
  exact (heard { s with history := s.historyAfter f c } heard').symm

/-- The graph makes the same of a snapshot. -/
theorem rebuildEdges (h : Agrees timed s t) (f : String) :
    Agrees timed (s.rebuildEdges f) (t.rebuildEdges f) := by
  cases hc : s.snapshot? f with
  | none =>
    have hc' : t.snapshot? f = none := h.snapshot? f ▸ hc
    rw [Session.rebuildEdges, Session.rebuildEdges, hc, hc']
    exact h
  | some c =>
    have hc' : t.snapshot? f = some c := h.snapshot? f ▸ hc
    have hgraph : s.graphAfter f c = t.graphAfter f c := by
      rw [graphAfter, graphAfter, h.fault, h.graph]
    exact (rebuildEdges_of hc).trans ((h.setGraph hgraph).trans (rebuildEdges_of hc').symm)

/-- So does the history. -/
theorem recordChanges (h : Agrees timed s t) (f : String) :
    Agrees timed (s.recordChanges f) (t.recordChanges f) := by
  cases hc : s.snapshot? f with
  | none =>
    have hc' : t.snapshot? f = none := h.snapshot? f ▸ hc
    rw [Session.recordChanges, Session.recordChanges, hc, hc']
    exact h
  | some c =>
    have hc' : t.snapshot? f = some c := h.snapshot? f ▸ hc
    have hhistory : s.historyAfter f c = t.historyAfter f c := by
      rw [historyAfter, historyAfter, h.fault, h.history]
    exact (recordChanges_of hc).trans ((h.setHistory hhistory).trans (recordChanges_of hc').symm)

/-- Graph and history each have a part of their own to keep. -/
theorem rebuildEdges_recordChanges (s : Session) (f : String) :
    Agrees timed ((s.rebuildEdges f).recordChanges f) ((s.recordChanges f).rebuildEdges f) := by
  cases hc : s.snapshot? f with
  | none =>
    have hedges : s.rebuildEdges f = s := by rw [Session.rebuildEdges, hc]
    have hchanges : s.recordChanges f = s := by rw [Session.recordChanges, hc]
    rw [hedges, hchanges, hedges]
    exact refl s
  | some c =>
    have hc₁ : { s with graph := s.graphAfter f c }.snapshot? f = some c := hc
    have hc₂ : { s with history := s.historyAfter f c }.snapshot? f = some c := hc
    exact (((rebuildEdges_of hc).recordChanges f).trans (recordChanges_of hc₁)).trans
      (((recordChanges_of hc).rebuildEdges f).trans (rebuildEdges_of hc₂)).symm

/-- And so does every subscriber. -/
theorem receiveSnapshot (h : Agrees timed s t) (f : String) (who : Subscriber) :
    Agrees timed (receiveSnapshot f s who) (receiveSnapshot f t who) := by
  cases who with
  | indexer => exact h
  | graph => exact h.rebuildEdges f
  | history => exact h.recordChanges f
  | listener =>
    exact (hear s (.snapshotUpdated f) .listener).symm.trans
      (h.trans (hear t (.snapshotUpdated f) .listener))

/-- Subscribers of whom one does not act on a notification can be told in either order. -/
theorem tell_comm {tell : Session → Subscriber → Session} {who who' : Subscriber}
    (htell : ∀ {s t}, Agrees timed s t → ∀ who, Agrees timed (tell s who) (tell t who))
    (hidle : ∀ s, Agrees timed s (tell s who)) (s : Session) :
    Agrees timed (tell (tell s who) who') (tell (tell s who') who) :=
  (htell (hidle s).symm who').trans (hidle (tell s who'))

/-- **Two subscribers may be told of a snapshot in either order.** -/
theorem receiveSnapshot_comm (f : String) (s : Session) (who who' : Subscriber) :
    Agrees timed (Session.receiveSnapshot f (Session.receiveSnapshot f s who) who')
      (Session.receiveSnapshot f (Session.receiveSnapshot f s who') who) := by
  have hidle : ∀ {who who' : Subscriber} (s : Session), who = .indexer ∨ who = .listener →
      Agrees timed (Session.receiveSnapshot f (Session.receiveSnapshot f s who) who')
        (Session.receiveSnapshot f (Session.receiveSnapshot f s who') who) := by
    rintro who who' s (rfl | rfl)
    · exact tell_comm (fun h => h.receiveSnapshot f) (fun s => refl s) s
    · exact tell_comm (fun h => h.receiveSnapshot f)
        (fun s => hear s (.snapshotUpdated f) .listener) s
  cases who with
  | indexer => exact hidle s (Or.inl rfl)
  | listener => exact hidle s (Or.inr rfl)
  | graph =>
    cases who' with
    | indexer => exact (hidle s (Or.inl rfl)).symm
    | listener => exact (hidle s (Or.inr rfl)).symm
    | graph => exact refl _
    | history => exact rebuildEdges_recordChanges s f
  | history =>
    cases who' with
    | indexer => exact (hidle s (Or.inl rfl)).symm
    | listener => exact (hidle s (Or.inr rfl)).symm
    | graph => exact (rebuildEdges_recordChanges s f).symm
    | history => exact refl _

/-- A snapshot that is announced leads to the same. -/
theorem announceSnapshot (h : Agrees timed s t) (f : String) :
    Agrees timed (s.announceSnapshot f) (t.announceSnapshot f) :=
  foldl_perm (equivalence timed) (fun _ _ who hst => hst.receiveSnapshot f who)
    (fun s who who' => receiveSnapshot_comm f s who who') (h.subscribers.filter _) h

/-! ### Passes -/

theorem forget (h : Agrees timed s t) (f : String) : Agrees timed (s.forget f) (t.forget f) :=
  (h.cancel f).setIndex (by rw [h.index])

/-- So does making one. -/
theorem install (h : Agrees timed s t) (d : Document) :
    Agrees timed (s.install d).1 (t.install d).1 := by
  have hassign : t.assignment d = s.assignment d := by
    rw [assignment, assignment, h.index, h.config, h.snapshot?]
  unfold Session.install
  by_cases ho : s.fault = some .outline
  · rw [if_pos ho, if_pos (h.fault ▸ ho)]
    exact h
  rw [if_neg ho, if_neg (h.fault ▸ ho)]
  dsimp only
  rw [hassign]
  split
  · exact h.setIndex (by rw [h.index])
  · exact (h.setIndex (by rw [h.index])).announceSnapshot d.fileId

/-- **A pass** makes the same of sessions that agree. -/
theorem pass (h : Agrees timed s t) (f : String) : Agrees timed (s.pass f).1 (t.pass f).1 := by
  unfold Session.pass
  rw [h.supported, ← h.snapshot?]
  cases (t.buffer.get? f).filter fun d => t.config.isSupported d.language with
  | none =>
    dsimp only
    rw [h.index]
    split_ifs
    · exact (h.note _ _).forget f
    · exact h
  | some d =>
    dsimp only
    rw [h.config]
    split_ifs
    · exact h.note _ _
    · cases s.snapshot? f with
      | none => exact h.install d
      | some current =>
        dsimp only
        split_ifs
        · exact h.note _ _
        · exact h.install d

/-- And a scheduled pass. -/
theorem scheduledPass (h : Agrees timed s t) (f : String) :
    Agrees timed (s.scheduledPass f) (t.scheduledPass f) := by
  unfold Session.scheduledPass
  rw [h.buffer, ← h.snapshot?]
  cases t.buffer.get? f with
  | none => exact h.pass f
  | some d =>
    cases s.snapshot? f with
    | none => exact h.pass f
    | some current =>
      dsimp only
      split_ifs
      · exact h.note _ _
      · exact h.pass f

/-! ### Closed documents -/

/-- Dropping edges changes the graph alone. -/
theorem dropEdges_of (s : Session) (f : String) :
    Agrees timed (s.dropEdges f)
      { s with graph := if s.graph.hasFile f then s.graph.drop f else s.graph } := by
  unfold Session.dropEdges
  split_ifs
  · exact (announce _ _).symm
  · exact refl s

theorem dropEdges (h : Agrees timed s t) (f : String) :
    Agrees timed (s.dropEdges f) (t.dropEdges f) :=
  (dropEdges_of s f).trans ((h.setGraph (by rw [h.graph])).trans (dropEdges_of t f).symm)

/-- Every subscriber makes the same of a closed document. -/
theorem receiveRemoved (h : Agrees timed s t) (f : String) (who : Subscriber) :
    Agrees timed (receiveRemoved f s who) (receiveRemoved f t who) := by
  cases who with
  | indexer => exact h.forget f
  | graph => exact h.dropEdges f
  | history => exact h.setHistory (by rw [h.history])
  | listener =>
    exact (hear s (.documentRemoved f) .listener).symm.trans
      (h.trans (hear t (.documentRemoved f) .listener))

/-- The graph drops its edges, whatever becomes of the other parts of a session meanwhile. -/
theorem dropEdges_comm {act : Session → Session}
    (hact : ∀ {s t}, Agrees timed s t → Agrees timed (act s) (act t))
    (hgraph : ∀ s graph, act { s with graph := graph } = { act s with graph := graph })
    (hkept : ∀ s, (act s).graph = s.graph) (s : Session) (f : String) :
    Agrees timed ((act s).dropEdges f) (act (s.dropEdges f)) := by
  have hright := hact (dropEdges_of s f)
  rw [hgraph s (if s.graph.hasFile f then s.graph.drop f else s.graph)] at hright
  have hleft : Agrees timed ((act s).dropEdges f) _ := dropEdges_of (act s) f
  rw [hkept] at hleft
  exact hleft.trans hright.symm

/-- **And two may be told of it in either order.** -/
theorem receiveRemoved_comm (f : String) (s : Session) (who who' : Subscriber) :
    Agrees timed (Session.receiveRemoved f (Session.receiveRemoved f s who) who')
      (Session.receiveRemoved f (Session.receiveRemoved f s who') who) := by
  have hlistener : ∀ (who' : Subscriber) (s : Session),
      Agrees timed (Session.receiveRemoved f (Session.receiveRemoved f s .listener) who')
        (Session.receiveRemoved f (Session.receiveRemoved f s who') .listener) := fun _ s =>
    tell_comm (fun h => h.receiveRemoved f) (fun s => hear s (.documentRemoved f) .listener) s
  have hforget : Agrees timed ((s.forget f).dropEdges f) ((s.dropEdges f).forget f) :=
    dropEdges_comm (fun h => h.forget f) (fun _ _ => rfl) (fun _ => rfl) s f
  have hbaseline : Agrees timed ((Session.receiveRemoved f s .history).dropEdges f)
      (Session.receiveRemoved f (s.dropEdges f) .history) :=
    dropEdges_comm (fun h => h.receiveRemoved f .history) (fun _ _ => rfl) (fun _ => rfl) s f
  cases who with
  | listener => exact hlistener who' s
  | indexer =>
    cases who' with
    | listener => exact (hlistener .indexer s).symm
    | indexer => exact refl _
    | graph => exact hforget
    | history => exact refl _
  | graph =>
    cases who' with
    | listener => exact (hlistener .graph s).symm
    | indexer => exact hforget.symm
    | graph => exact refl _
    | history => exact hbaseline.symm
  | history =>
    cases who' with
    | listener => exact (hlistener .history s).symm
    | indexer => exact refl _
    | graph => exact hbaseline
    | history => exact refl _

/-- **Closing a document**, in whatever order its subscribers are told. -/
theorem removed (h : Agrees timed s t) (f : String) :
    Agrees timed (s.publish (.documentRemoved f)) (t.publish (.documentRemoved f)) :=
  foldl_perm (equivalence timed) (fun _ _ who hst => hst.receiveRemoved f who)
    (fun s who who' => receiveRemoved_comm f s who who') (h.subscribers.filter _) h

end Agrees
end Session
end SymbolAtlas
