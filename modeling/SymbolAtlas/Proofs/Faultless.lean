import SymbolAtlas.Proofs.Fresh
import SymbolAtlas.Proofs.Passing

/-!
# As long as nothing fails

A snapshot that was made without anything failing is what graph and history go by: the graph has its
edges and the history compares the next snapshot with it.  `Session.Faultless` says so of all
snapshots of a session, as far as graph and history have not been disposed of.  A disposed indexer
is not told of closed documents any more, so from then on a snapshot can outlive what the others
know of its file; but they never know anything else.

Main statement: `Faultless.run`, for all operations that make nothing fail, disposal included.
-/

namespace SymbolAtlas
namespace Session

/-- Whether an operation makes nothing fail. -/
def Op.faultless : Op → Bool
  | .setFault fault => fault.isNone
  | _ => true

/-- What a session knows of the file `f` goes by the snapshot `c`. -/
structure Shown (s : Session) (f : String) (c : Snapshot) : Prop where
  supported : s.config.isSupported c.language = true
  length : c.source.length ≤ s.config.maxDocumentChars
  lineage : (s.index.lineages.get? f).isSome = true
  edges : .graph ∈ s.subscribers → s.graph.files.get? f = some c.callEdges ∨
    .indexer ∉ s.subscribers ∧ s.graph.files.get? f = none
  baseline : .history ∈ s.subscribers → (s.history.ofFile f).baseline = some c ∨
    .indexer ∉ s.subscribers ∧ (s.history.ofFile f).baseline = none

/-- Nothing is made to fail, whoever is registered is so in the order of the beginning, and all is
known by the snapshots. -/
structure Faultless (s : Session) : Prop where
  fault : s.fault = none
  wired : s.subscribers.Sublist [.indexer, .graph, .history, .listener]
  shown : ∀ f c, s.snapshot? f = some c → s.Shown f c

namespace Faultless

variable {s t : Session} {f : String}

theorem nodup (hs : s.Faultless) : s.subscribers.Nodup := hs.wired.nodup (by decide)

/-- Documents, timers and what is said do not matter, nor which files are tracked. -/
theorem of_eq (hs : s.Faultless) (h : t = { s with
    buffer := t.buffer, timers := t.timers, heard := t.heard, diagnostics := t.diagnostics
    index := { s.index with tracked := t.index.tracked } }) : t.Faultless := by
  rw [h]
  refine ⟨hs.fault, hs.wired, fun g c hc => ?_⟩
  have hshown := hs.shown g c hc
  exact ⟨hshown.supported, hshown.length, hshown.lineage, hshown.edges, hshown.baseline⟩

theorem announce (hs : s.Faultless) (n : Notice) : (s.announce n).Faultless := by
  rw [announce_eq]
  exact hs.of_eq rfl

/-! ### Snapshots -/

/-- The graph takes over every snapshot. -/
theorem graphAfter_eq (hs : s.Faultless) (f : String) (c : Snapshot) :
    s.graphAfter f c = s.graph.replace f c.callEdges := by
  rw [graphAfter, if_neg (by simp [hs.fault])]

/-- So does the history. -/
theorem historyAfter_eq (hs : s.Faultless) (f : String) (c : Snapshot) :
    s.historyAfter f c = s.history.recording f c := by
  rw [historyAfter, if_neg (by simp [hs.fault])]

/-- New edges keep it so. -/
theorem rebuildEdges (hs : s.Faultless) (f : String) : (s.rebuildEdges f).Faultless := by
  cases hc : s.snapshot? f with
  | none =>
    rw [Session.rebuildEdges, hc]
    exact hs
  | some c =>
    obtain ⟨heard, heq⟩ := rebuildEdges_eq hc
    rw [heq, hs.graphAfter_eq]
    refine ⟨hs.fault, hs.wired, fun g c' hc' => ?_⟩
    have hshown := hs.shown g c' hc'
    refine ⟨hshown.supported, hshown.length, hshown.lineage, fun hin => ?_, hshown.baseline⟩
    dsimp only
    rw [CallGraph.files_replace, Entries.get?_put]
    split_ifs with hg
    · subst hg
      have hc' : s.snapshot? g = some c' := hc'
      exact Or.inl (by rw [Option.some.inj (hc.symm.trans hc')])
    · exact hshown.edges hin

theorem recordChanges (hs : s.Faultless) (f : String) : (s.recordChanges f).Faultless := by
  cases hc : s.snapshot? f with
  | none =>
    rw [Session.recordChanges, hc]
    exact hs
  | some c =>
    obtain ⟨heard, heq⟩ := recordChanges_eq hc
    rw [heq, hs.historyAfter_eq]
    refine ⟨hs.fault, hs.wired, fun g c' hc' => ?_⟩
    have hshown := hs.shown g c' hc'
    refine ⟨hshown.supported, hshown.length, hshown.lineage, hshown.edges, fun hin => ?_⟩
    dsimp only
    rw [History.ofFile_recording]
    split_ifs with hg
    · subst hg
      have hc' : s.snapshot? g = some c' := hc'
      exact Or.inl (by rw [Option.some.inj (hc.symm.trans hc')])
    · exact hshown.baseline hin

/-- So does a new snapshot. -/
theorem announceSnapshot (hs : s.Faultless) (f : String) : (s.announceSnapshot f).Faultless := by
  refine List.foldlRecOn (s.audience (.snapshotUpdated f)) (receiveSnapshot f) hs
    fun t ht who _ => ?_
  cases who with
  | indexer => exact ht
  | graph => exact ht.rebuildEdges f
  | history => exact ht.recordChanges f
  | listener => exact ht.of_eq rfl

/-- And a file that is forgotten. -/
theorem forget (hs : s.Faultless) (f : String) : (s.forget f).Faultless := by
  refine ⟨hs.fault, hs.wired, fun g c hc => ?_⟩
  simp only [Session.forget, snapshot?, Index.forget, Entries.get?_erase] at hc
  split_ifs at hc with hg
  have hshown := hs.shown g c hc
  refine ⟨hshown.supported, hshown.length, ?_, hshown.edges, hshown.baseline⟩
  simpa [Session.forget, Index.forget, Entries.get?_erase, hg] using hshown.lineage

/-- A new snapshot of a document that is fit for one. -/
theorem installed (hs : s.Faultless) {d : Document}
    (hlanguage : s.config.isSupported d.language = true)
    (hlength : d.length ≤ s.config.maxDocumentChars) (ids : List String) (l : Lineage) :
    ((s.withSnapshot d ids l).announceSnapshot d.fileId).Faultless := by
  obtain ⟨heard, heq⟩ := installed_eq hs.nodup d ids l
  rw [heq, hs.graphAfter_eq, hs.historyAfter_eq]
  refine ⟨hs.fault, hs.wired, fun g c hc => ?_⟩
  by_cases hg : g = d.fileId
  · subst hg
    have hc : some (Snapshot.ofOutline d (Outline.ofText d.content) ids) = some c := by
      simpa [snapshot?, Entries.get?_put] using hc
    obtain rfl := Option.some.inj hc
    refine ⟨hlanguage, hlength, by simp [Entries.get?_put], fun hin => ?_, fun hin => ?_⟩
    · exact Or.inl (by simp [if_pos hin, CallGraph.files_replace, Entries.get?_put])
    · exact Or.inl (by simp [if_pos hin, History.ofFile_recording])
  · have hc : s.snapshot? g = some c := by simpa [snapshot?, Entries.get?_put, hg] using hc
    have hshown := hs.shown g c hc
    refine ⟨hshown.supported, hshown.length, ?_, fun hin => ?_, fun hin => ?_⟩
    · simpa [Entries.get?_put, hg] using hshown.lineage
    · simpa [if_pos hin, CallGraph.files_replace, Entries.get?_put, hg] using hshown.edges hin
    · simpa [if_pos hin, History.ofFile_recording, hg] using hshown.baseline hin

/-- **A pass**, however it ends. -/
theorem passes (hs : s.Faultless) {forced : Bool} {cs : List Call} (h : Passes f forced s cs t) :
    t.Faultless := by
  cases h with
  | idle said => exact hs.of_eq rfl
  | dropped said => exact (hs.of_eq rfl : { s with diagnostics := said }.Faultless).forget f
  | stranded hd h =>
    refine ⟨hs.fault, hs.wired, fun g c hc => ?_⟩
    have hshown := hs.shown g c hc
    refine ⟨hshown.supported, hshown.length, ?_, hshown.edges, hshown.baseline⟩
    dsimp only
    rw [Entries.get?_put]
    split_ifs
    · rfl
    · exact hshown.lineage
  | installed hd hfault h => exact hs.installed hd.language hd.length _ _

/-- Tending to a file does. -/
theorem tends (hs : s.Faultless) {cs : List Call} (h : Tends f s cs t) : t.Faultless := by
  have hnudged : ∀ {t : Session}, Nudges f s t → t.Faultless := by
    rintro t ⟨timers, tracked⟩
    exact hs.of_eq rfl
  cases h with
  | waits h => exact hnudged h
  | passes h hp => exact (hnudged h).passes hp

theorem passUntil (hs : s.Faultless) (target : Int) (fuel : Nat) :
    (passUntil target fuel s).Faultless := by
  induction fuel generalizing s with
  | zero => exact hs
  | succ fuel ih =>
    unfold Session.passUntil
    cases s.timers.next? target with
    | none => exact hs
    | some timer =>
      have hs' : { s with timers := s.timers.goOff timer }.Faultless := hs.of_eq rfl
      exact ih (hs'.passes (passes_scheduledPass _ timer.key))

theorem start (hs : s.Faultless) : s.start.Faultless :=
  List.foldlRecOn s.buffer.files observe hs fun t ht f _ => ht.tends (tends_observe t f)

/-! ### Documents -/

/-- The graph or the history may forget the file `f` once the indexer shows no snapshot of it. -/
theorem dropped (hs : s.Faultless) (hgone : .indexer ∈ s.subscribers → s.snapshot? f = none)
    (hgraph : ∀ g, t.graph.files.get? g = s.graph.files.get? g ∨
      g = f ∧ t.graph.files.get? g = none)
    (hhistory : ∀ g, (t.history.ofFile g).baseline = (s.history.ofFile g).baseline ∨
      g = f ∧ (t.history.ofFile g).baseline = none)
    (h : t = { s with graph := t.graph, history := t.history }) : t.Faultless := by
  have hunless : ∀ c, s.snapshot? f = some c → .indexer ∉ s.subscribers := by
    intro c hc hin
    cases (hgone hin).symm.trans hc
  rw [h]
  refine ⟨hs.fault, hs.wired, fun g c hc => ?_⟩
  have hshown := hs.shown g c hc
  refine ⟨hshown.supported, hshown.length, hshown.lineage, fun hin => ?_, fun hin => ?_⟩
  · rcases hgraph g with hsame | ⟨rfl, hnone⟩
    · rw [hsame]
      exact hshown.edges hin
    · exact Or.inr ⟨hunless c hc, hnone⟩
  · rcases hhistory g with hsame | ⟨rfl, hnone⟩
    · rw [hsame]
      exact hshown.baseline hin
    · exact Or.inr ⟨hunless c hc, hnone⟩

/-- Edges may go with their snapshot. -/
theorem dropEdges (hs : s.Faultless) (hgone : .indexer ∈ s.subscribers → s.snapshot? f = none) :
    (s.dropEdges f).Faultless := by
  unfold Session.dropEdges
  split_ifs
  · have hdropped : { s with graph := s.graph.drop f }.Faultless := by
      refine hs.dropped hgone (fun g => ?_) (fun _ => Or.inl rfl) rfl
      rw [CallGraph.files_drop, Entries.get?_erase]
      split_ifs with hg
      · exact Or.inr ⟨hg, rfl⟩
      · exact Or.inl rfl
    exact hdropped.announce _
  · exact hs

/-- So may the baseline. -/
theorem forgetBaseline (hs : s.Faultless)
    (hgone : .indexer ∈ s.subscribers → s.snapshot? f = none) :
    { s with history := s.history.forgetBaseline f }.Faultless := by
  refine hs.dropped hgone (fun _ => Or.inl rfl) (fun g => ?_) rfl
  rw [History.ofFile_forgetBaseline]
  split_ifs with hg
  · exact Or.inr ⟨hg, rfl⟩
  · exact Or.inl rfl

/-- **Closing a document.**  The indexer is told first if it is told at all, so nobody forgets a
file of which it shows a snapshot. -/
theorem removed (hs : s.Faultless) (f : String) :
    (s.publish (.documentRemoved f)).Faultless := by
  have hrest : ∀ {t : Session} (whos : List Subscriber), t.Faultless →
      (.indexer ∈ t.subscribers → t.snapshot? f = none) →
      (whos.foldl (receiveRemoved f) t).Faultless := by
    intro t whos ht hgone
    refine (List.foldlRecOn (motive := fun u => u.Faultless ∧
      (.indexer ∈ u.subscribers → u.snapshot? f = none)) whos (receiveRemoved f)
      ⟨ht, hgone⟩ fun u hu who _ => ?_).1
    cases who with
    | indexer =>
      refine ⟨hu.1.forget f, fun _ => ?_⟩
      simp [receiveRemoved, Session.forget, snapshot?, Index.forget, Entries.get?_erase]
    | graph =>
      refine ⟨hu.1.dropEdges hu.2, ?_⟩
      dsimp only [receiveRemoved, Session.dropEdges]
      split_ifs
      · rw [announce_eq]
        exact hu.2
      · exact hu.2
    | history => exact ⟨hu.1.forgetBaseline hu.2, hu.2⟩
    | listener => exact ⟨hu.1.of_eq rfl, hu.2⟩
  rw [publish_eq_foldl]
  rcases List.sublist_cons_iff.mp hs.wired with hwired | ⟨whos, hwhos, -⟩
  · exact hrest s.subscribers hs fun hin => absurd (hwired.subset hin) (by decide)
  · rw [hwhos, List.foldl_cons]
    refine hrest whos (hs.forget f) fun _ => ?_
    simp [receive, receiveRemoved, Session.forget, snapshot?, Index.forget, Entries.get?_erase]

/-- Whatever is published keeps a session faultless. -/
theorem publish (hs : s.Faultless) (n : Notice) : (s.publish n).Faultless := by
  have hindexer : ∀ {n : Notice}, (∀ s who, who ≠ .indexer → receive n s who = s.hear n who) →
      (∀ s, s.Faultless → (receive n s .indexer).Faultless) → (s.publish n).Faultless := by
    intro n hothers hact
    refine List.foldlRecOn (s.audience n) (receive n) hs fun t ht who _ => ?_
    by_cases hwho : who = .indexer
    · exact hwho ▸ hact t ht
    · rw [hothers t who hwho]
      cases who with
      | listener => exact ht.of_eq rfl
      | _ => exact ht
  cases n with
  | documentAdded f =>
    refine hindexer (fun s who hwho => ?_) fun s hs => hs.tends (tends_observe s f)
    cases who with
    | indexer => exact absurd rfl hwho
    | _ => rfl
  | contentChanged f =>
    refine hindexer (fun s who hwho => ?_) fun s hs => hs.tends (tends_changed s f)
    cases who with
    | indexer => exact absurd rfl hwho
    | _ => rfl
  | documentRemoved f => exact hs.removed f
  | snapshotUpdated f => exact hs.announceSnapshot f
  | graphUpdated f => exact hs.announce _
  | historyRecorded e => exact hs.announce _

/-- So do operations on documents. -/
theorem buffers (hs : s.Faultless) {cs : List Call} (h : Buffers s cs t) : t.Faultless := by
  cases h with
  | notes | keeps => exact hs.of_eq rfl
  | @tells b n => exact (hs.of_eq rfl : { s with buffer := b }.Faultless).publish n

/-! ### Operations -/

/-- Who is taken out needs to know nothing any more. -/
theorem unsubscribe (hs : s.Faultless) (who : Subscriber) : (s.unsubscribe who).Faultless := by
  have hkept : ∀ who', who' ∈ (s.unsubscribe who).subscribers → who' ∈ s.subscribers :=
    fun who' h => (List.mem_filter.mp h).1
  refine ⟨hs.fault, List.filter_sublist.trans hs.wired, fun g c hc => ?_⟩
  have hshown := hs.shown g c hc
  refine ⟨hshown.supported, hshown.length, hshown.lineage, fun hin => ?_, fun hin => ?_⟩
  · exact (hshown.edges (hkept _ hin)).imp_right fun ⟨hout, hnone⟩ =>
      ⟨fun h => hout (hkept _ h), hnone⟩
  · exact (hshown.baseline (hkept _ hin)).imp_right fun ⟨hout, hnone⟩ =>
      ⟨fun h => hout (hkept _ h), hnone⟩

/-- And disposal of the graph. -/
theorem disposeGraph (hs : s.Faultless) : s.disposeGraph.Faultless := by
  have hout : .graph ∉ (s.unsubscribe .graph).subscribers := by
    simp [Session.unsubscribe, Registry.unregister]
  have hrest := hs.unsubscribe .graph
  refine ⟨hrest.fault, hrest.wired, fun g c hc => ?_⟩
  have hshown := hrest.shown g c hc
  exact ⟨hshown.supported, hshown.length, hshown.lineage, fun hin => absurd hin hout,
    hshown.baseline⟩

theorem disposeIndexer (hs : s.Faultless) : s.disposeIndexer.Faultless := by
  have hrest := hs.unsubscribe .indexer
  refine ⟨hrest.fault, hrest.wired, fun g c hc => ?_⟩
  simp [Session.disposeIndexer, snapshot?, Index.empty] at hc

/-- **What one operation keeps.** -/
theorem step (hs : s.Faultless) {op : Op} (hop : op.faultless = true) :
    (s.step op).1.Faultless := by
  cases op with
  | openDocument | update | edit | close | plant | uproot => exact hs.buffers (buffers_step s rfl)
  | publish n => exact hs.publish n
  | advance ms => exact (hs.passUntil _ _).of_eq rfl
  | flush =>
    exact List.foldlRecOn s.timers.keys flushFile hs fun t ht f _ => ht.tends (tends_flushFile t f)
  | flushFile f => exact hs.tends (tends_flushFile s f)
  | start => exact hs.start
  | recompute f =>
    have hpass : Passes f true _ _ (s.recompute f).1 := passes_pass (by simp)
    exact (hs.of_eq rfl : { s with timers := s.timers.cancel f }.Faultless).passes hpass
  | setFault fault =>
    obtain rfl : fault = none := Option.isNone_iff_eq_none.mp hop
    have hsame : { s with fault := none } = s := by rw [← hs.fault]
    exact hsame ▸ hs
  | dispose part =>
    cases part with
    | history => exact hs.unsubscribe .history
    | graph => exact hs.disposeGraph
    | indexer => exact hs.disposeIndexer
    | session => exact ((hs.unsubscribe .history).disposeGraph).disposeIndexer

/-- **What a run keeps.** -/
theorem run (hs : s.Faultless) {ops : List Op} (hops : ∀ op ∈ ops, op.faultless = true) :
    (s.run ops).Faultless := by
  unfold Session.run
  exact List.foldlRecOn ops _ hs fun _ ht op hop => ht.step (hops op hop)

/-- A listener comes last. -/
theorem subscribe (hs : s.Faultless) (h : s.subscribers = [.indexer, .graph, .history]) :
    (s.subscribe .listener).Faultless := by
  have hall : (s.subscribe .listener).subscribers = [.indexer, .graph, .history, .listener] := by
    rw [Session.subscribe, h]
    rfl
  refine ⟨hs.fault, hall ▸ List.Sublist.refl _, fun g c hc => ?_⟩
  have hshown := hs.shown g c hc
  refine ⟨hshown.supported, hshown.length, hshown.lineage, fun _ => Or.inl ?_, fun _ => Or.inl ?_⟩
  · exact (hshown.edges (by simp [h])).resolve_right fun hout => hout.1 (by simp [h])
  · exact (hshown.baseline (by simp [h])).resolve_right fun hout => hout.1 (by simp [h])

end Faultless

/-- A new session is faultless. -/
theorem Fresh.faultless {config : Config} {s : Session} (h : Fresh config s) : s.Faultless := by
  induction h with
  | new clocked documents =>
    have hblank : (blank config clocked (.holding documents)
        [.indexer, .graph, .history]).Faultless :=
      ⟨rfl, List.sublist_append_left _ [Subscriber.listener],
        fun f c hc => by simp [snapshot?, blank, Index.empty] at hc⟩
    exact hblank.start.of_eq rfl
  | @listen s h ih =>
    by_cases hin : .listener ∈ s.subscribers
    · have hsame : s.subscribe .listener = s := by
        rw [Session.subscribe, Registry.register, if_pos hin]
      rw [hsame]
      exact ih
    · refine ih.subscribe ?_
      rw [← h.regular.wired, eq_comm, List.filter_eq_self]
      intro who hwho
      exact decide_eq_true fun heq => hin (heq ▸ hwho)

end Session
end SymbolAtlas
