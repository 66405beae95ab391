import SymbolAtlas.Proofs.Agreement
import SymbolAtlas.Proofs.Fresh

/-!
# With and without a clock

Without a clock a file is indexed as soon as it changes; with one, after a wait.  If the wait is cut
short after every operation, the two come to the same: a session without a clock and a session with
one that is flushed after its construction and after every operation are twins (`Session.Twins`),
which agree on everything but the time, with nothing waiting in either (`Twins.step`).

At the construction the one session takes up and indexes the open documents one by one, while the
other takes all of them up before it indexes the first.  This makes no difference because taking up
a file and a pass over another one can be done in either order (`take_scheduledPass`).
-/

namespace SymbolAtlas

namespace Index

/-- Files are tracked and forgotten independently. -/
theorem track_forget (ix : Index) {f g : String} (h : g ≠ f) :
    (ix.forget f).track g = (ix.track g).forget f := by
  have hmem : g ∈ (ix.forget f).tracked ↔ g ∈ ix.tracked := by simp [forget, h]
  unfold track
  by_cases hg : g ∈ ix.tracked
  · rw [if_pos (hmem.mpr hg), if_pos hg]
  · rw [if_neg (fun hin => hg (hmem.mp hin)), if_neg hg]
    simp [forget, h]

end Index

namespace Session

variable {s t : Session} {f : String} {files : List String}

/-- The indexer takes up a file. -/
def take (s : Session) (f : String) : Session := { s with index := s.index.track f }

theorem buffer_take (s : Session) (f : String) : (s.take f).buffer = s.buffer := rfl

theorem config_take (s : Session) (f : String) : (s.take f).config = s.config := rfl

theorem fault_take (s : Session) (f : String) : (s.take f).fault = s.fault := rfl

theorem index_take (s : Session) (f : String) : (s.take f).index = s.index.track f := rfl

theorem snapshot?_take (s : Session) (g f : String) : (s.take g).snapshot? f = s.snapshot? f :=
  congrArg (·.get? f) (Index.snapshots_track s.index g)

namespace Agrees

variable {timed : Bool} {s t : Session}

theorem noted (s : Session) (said : Diagnostic) : Agrees timed s (s.note said) :=
  ⟨rfl, rfl, .refl _, rfl, rfl, rfl, rfl, fun _ => ⟨rfl, rfl⟩⟩

theorem take (h : Agrees timed s t) (f : String) : Agrees timed (s.take f) (t.take f) :=
  h.setIndex (by rw [h.index])

end Agrees

/-! ### Taking up a file during a pass over another one -/

section Take

variable {timed : Bool}

/-- It makes no difference to a subscriber whether a file is taken up before or after. -/
theorem take_receiveSnapshot (s : Session) (g f : String) (who : Subscriber) :
    Agrees timed ((receiveSnapshot f s who).take g) (receiveSnapshot f (s.take g) who) := by
  have htake := snapshot?_take s g f
  cases who with
  | indexer | listener => exact .refl _
  | graph =>
    simp only [receiveSnapshot]
    cases hc : s.snapshot? f with
    | none =>
      rw [rebuildEdges, rebuildEdges, htake, hc]
      exact .refl _
    | some c =>
      exact ((Agrees.rebuildEdges_of hc).take g).trans
        (Agrees.rebuildEdges_of (htake.trans hc)).symm
  | history =>
    simp only [receiveSnapshot]
    cases hc : s.snapshot? f with
    | none =>
      rw [recordChanges, recordChanges, htake, hc]
      exact .refl _
    | some c =>
      exact ((Agrees.recordChanges_of hc).take g).trans
        (Agrees.recordChanges_of (htake.trans hc)).symm

/-- Nor to all of them. -/
theorem take_announceSnapshot (s : Session) (g f : String) :
    Agrees timed ((s.announceSnapshot f).take g) ((s.take g).announceSnapshot f) := by
  have hfold : ∀ (whos : List Subscriber) {s t : Session}, Agrees timed (s.take g) t →
      Agrees timed ((whos.foldl (receiveSnapshot f) s).take g)
        (whos.foldl (receiveSnapshot f) t) := by
    intro whos
    induction whos with
    | nil => exact fun h => h
    | cons who whos ih =>
      exact fun h => ih ((take_receiveSnapshot _ g f who).trans (h.receiveSnapshot f who))
  exact hfold (s.audience (.snapshotUpdated f)) (.refl _)

/-- Nor to the making of a snapshot. -/
theorem take_install (s : Session) (g : String) (d : Document) :
    Agrees timed ((s.install d).1.take g) ((s.take g).install d).1 := by
  have hassign : (s.take g).assignment d = s.assignment d := by
    rw [assignment, snapshot?_take, index_take, config_take, Index.lineage, Index.lineages_track,
      assignment, Index.lineage]
  have htrack : ∀ lineages snapshots,
      { s.index with lineages := lineages, snapshots := snapshots }.track g =
        { s.index.track g with lineages := lineages, snapshots := snapshots } := by
    intro lineages snapshots
    unfold Index.track
    dsimp only
    split_ifs <;> rfl
  unfold install
  by_cases ho : s.fault = some .outline
  · rw [fault_take, if_pos ho, if_pos ho]
    exact .refl _
  rw [fault_take, if_neg ho, if_neg ho]
  rw [hassign]
  dsimp only
  split
  · refine (Agrees.refl (s.take g)).setIndex ?_
    rw [htrack, index_take, Index.lineages_track, Index.snapshots_track]
  · refine (take_announceSnapshot _ g d.fileId).trans (Agrees.announceSnapshot ?_ d.fileId)
    refine (Agrees.refl (s.take g)).setIndex ?_
    rw [htrack, index_take, Index.lineages_track, Index.snapshots_track]

/-- Nor to a pass over another file. -/
theorem take_pass (s : Session) {g : String} (h : g ≠ f) :
    Agrees timed ((s.pass f).1.take g) ((s.take g).pass f).1 := by
  unfold pass
  rw [snapshot?_take, buffer_take, config_take]
  cases (s.buffer.get? f).filter fun d => s.config.isSupported d.language with
  | none =>
    dsimp only
    rw [index_take]
    by_cases hf : f ∈ s.index.tracked
    · rw [if_pos hf, if_pos ((Index.mem_tracked_track h).mpr hf)]
      exact (Agrees.refl _).setIndex (Index.track_forget _ h)
    · rw [if_neg hf, if_neg (fun hin => hf ((Index.mem_tracked_track h).mp hin))]
      exact .refl _
  | some d =>
    dsimp only
    split_ifs
    · exact .refl _
    · cases s.snapshot? f with
      | none => exact take_install s g d
      | some current =>
        dsimp only
        split_ifs
        · exact .refl _
        · exact take_install s g d

/-- Nor to a scheduled one. -/
theorem take_scheduledPass (s : Session) {g : String} (h : g ≠ f) :
    Agrees timed ((s.scheduledPass f).take g) ((s.take g).scheduledPass f) := by
  have hpass : Agrees timed ((s.pass f).1.take g) ((s.take g).pass f).1 := take_pass s h
  unfold scheduledPass
  rw [snapshot?_take, buffer_take]
  cases s.buffer.get? f with
  | none => exact hpass
  | some d =>
    cases s.snapshot? f with
    | none => exact hpass
    | some current =>
      dsimp only
      split_ifs
      · exact .refl _
      · exact hpass

end Take

/-! ### Passes over what waits -/

/-- Where nothing waits, nothing is cancelled. -/
theorem cancel_of_waiting {t : Timers} (h : t.waiting = []) (f : String) : t.cancel f = t := by
  cases t
  simp_all [Timers.cancel]

/-- So nothing waits after a pass either. -/
theorem waiting_of_timers (h : t.timers = s.timers ∨ t.timers = s.timers.cancel f)
    (hw : s.timers.waiting = []) : t.timers.waiting = [] := by
  rcases h with h | h
  · rw [h, hw]
  · rw [h, cancel_of_waiting hw, hw]

/-- Cancelling a key takes it off the list. -/
theorem keys_cancel (t : Timers) (f : String) : (t.cancel f).keys = t.keys.filter (· ≠ f) := by
  simp only [Timers.keys, Timers.cancel, List.filter_map, Function.comp_def]

/-- A flush makes the waiting passes in the order in which they wait, and leaves none. -/
theorem flush_agrees (hs : s.timers.keys.Nodup) (h : Agrees false s t) :
    Agrees false s.flush (s.timers.keys.foldl scheduledPass t) ∧ s.flush.timers.waiting = [] := by
  have hfold : ∀ (keys : List String) {s t : Session}, s.timers.keys = keys → keys.Nodup →
      Agrees false s t → Agrees false (keys.foldl flushFile s) (keys.foldl scheduledPass t) ∧
        (keys.foldl flushFile s).timers.waiting = [] := by
    intro keys
    induction keys with
    | nil => exact fun hkeys _ h => ⟨h, List.map_eq_nil_iff.mp hkeys⟩
    | cons f keys ih =>
      intro s t hkeys hnodup h
      obtain ⟨hf, hrest⟩ := List.nodup_cons.mp hnodup
      have hpending : s.timers.isPending f = true := by
        rw [Timers.isPending_eq, ← Timers.mem_keys_iff, hkeys]
        exact List.mem_cons_self
      have hcancel : (s.timers.cancel f).keys = keys := by
        rw [keys_cancel, hkeys, List.filter_cons_of_neg (by simp), List.filter_eq_self]
        exact fun g hg => decide_eq_true (ne_of_mem_of_not_mem hg hf)
      have htimers : (s.flushFile f).timers = s.timers.cancel f := by
        rw [flushFile, if_pos hpending]
        exact timers_scheduledPass ((Timers.due?_cancel ..).trans (if_pos rfl))
      rw [List.foldl_cons, List.foldl_cons]
      refine ih (by rw [htimers, hcancel]) hrest ?_
      rw [flushFile, if_pos hpending]
      have hcancelled : Agrees false { s with timers := s.timers.cancel f } t :=
        { h with clock := by simp }
      exact hcancelled.scheduledPass f
  exact hfold s.timers.keys rfl hs h

/-- Where nothing waits, a flush does nothing. -/
theorem flush_of_waiting (h : s.timers.waiting = []) : s.flush = s := by
  rw [flush, Timers.keys, h]
  rfl

/-- Without a clock a pass is made at once. -/
theorem schedule_of_unclocked (hc : s.clocked = false) (h : s.timers.waiting = []) (f : String) :
    s.schedule f = s.scheduledPass f := by
  rw [schedule, if_neg (by simp [hc]), cancel_of_waiting h]

/-- With one it is made by the flush that follows. -/
theorem flush_schedule (hc : s.clocked = true) (h : s.timers.waiting = []) (f : String) :
    (s.schedule f).flush = s.scheduledPass f := by
  have htimers : s.timers.schedule s.config.delay f =
      ⟨s.timers.now, [⟨f, s.timers.now + s.config.delay⟩]⟩ := by
    rw [Timers.schedule, cancel_of_waiting h, h]
    rfl
  have hback : (⟨s.timers.now, [⟨f, s.timers.now + s.config.delay⟩]⟩ : Timers).cancel f =
      s.timers := by
    rw [← cancel_of_waiting h f]
    simp [Timers.cancel, h]
  rw [schedule, if_pos hc, htimers, flush]
  simp only [Timers.keys, List.map_cons, List.map_nil, List.foldl_cons, List.foldl_nil]
  rw [flushFile, if_pos (by simp [Timers.isPending]), hback]

/-! ### Twins -/

/-- A session without a clock and one with a clock that agree on all but the time, while nothing
waits in either. -/
structure Twins (s t : Session) : Prop extends Agrees false s t where
  unclocked : s.clocked = false
  clocked : t.clocked = true
  parts : s.subscribers = [.indexer, .graph, .history]
  parts' : t.subscribers = [.indexer, .graph, .history]
  waiting : s.timers.waiting = []
  waiting' : t.timers.waiting = []

namespace Twins

variable {s t s' t' : Session}

/-- Sessions that get on alike stay twins. -/
theorem reaches (h : Twins s t) (ha : Agrees false s' t') (hs : Reaches s s') (ht : Reaches t t')
    (hw : s'.timers.waiting = []) (hw' : t'.timers.waiting = []) : Twins s' t' :=
  { ha with
    unclocked := (clocked_of_reaches hs).trans h.unclocked
    clocked := (clocked_of_reaches ht).trans h.clocked
    parts := (subscribers_of_reaches hs).trans h.parts
    parts' := (subscribers_of_reaches ht).trans h.parts'
    waiting := hw
    waiting' := hw' }

theorem moves (h : Twins s t) (ha : Agrees false s' t') (hs : Moves s s') (ht : Moves t t')
    (hw : s'.timers = s.timers) (hw' : t'.timers = t.timers) : Twins s' t' :=
  h.reaches ha (.single hs) (.single ht) (hw ▸ h.waiting) (hw' ▸ h.waiting')

/-- Passes that come out alike keep twins together. -/
theorem passes (h : Twins s t) {forced : Bool} {cs cs' : List Call} (ha : Agrees false s' t')
    (hs : Passes f forced s cs s') (ht : Passes f forced t cs' t') : Twins s' t' :=
  h.reaches ha hs.unfolds.reaches ht.unfolds.reaches (waiting_of_timers hs.timers h.waiting)
    (waiting_of_timers ht.timers h.waiting')

/-- A pass over the same file does. -/
theorem pass (h : Twins s t) (f : String) : Twins (s.pass f).1 (t.pass f).1 := by
  have hpass : ∀ u : Session, Passes f true u (u.passCalls f) (u.pass f).1 := fun u =>
    passes_pass (by simp)
  exact h.passes (h.toAgrees.pass f) (hpass s) (hpass t)

theorem scheduledPass (h : Twins s t) (f : String) :
    Twins (s.scheduledPass f) (t.scheduledPass f) :=
  h.passes (h.toAgrees.scheduledPass f) (passes_scheduledPass s f) (passes_scheduledPass t f)

/-- A flush of the one with a clock changes nothing. -/
theorem flush (h : Twins s t) : Twins s t.flush := by
  rw [flush_of_waiting h.waiting']
  exact h

/-- Scheduling is scheduling and flushing. -/
theorem schedule (h : Twins s t) (f : String) : Twins (s.schedule f) (t.schedule f).flush := by
  rw [schedule_of_unclocked h.unclocked h.waiting, flush_schedule h.clocked h.waiting']
  exact h.scheduledPass f

/-- Taking up a document is taking it up and flushing. -/
theorem observe (h : Twins s t) (f : String) : Twins (s.observe f) (t.observe f).flush := by
  unfold Session.observe
  rw [h.supported]
  cases (t.buffer.get? f).filter fun d => t.config.isSupported d.language with
  | none => exact h.flush
  | some d => exact (h.moves (h.toAgrees.take f) (.track s f) (.track t f) rfl rfl).schedule f

/-- What the buffer has to say is taken up by the indexer; a closed document is forgotten by all. -/
theorem publish (h : Twins s t) (f : String) {n : Notice}
    (hn : n = .documentAdded f ∨ n = .contentChanged f ∨ n = .documentRemoved f) :
    Twins (s.publish n) (t.publish n).flush := by
  rcases hn with rfl | rfl | rfl
  · rw [publish_eq_foldl, publish_eq_foldl, h.parts, h.parts']
    exact h.observe f
  · simp only [publish_eq_foldl, h.parts, h.parts', List.foldl_cons, List.foldl_nil, receive,
      receiveChanged]
    rw [← h.index]
    split_ifs
    · exact h.schedule f
    · exact h.observe f
  · have hwaiting : ∀ {s : Session}, s.subscribers = [.indexer, .graph, .history] →
        s.timers.waiting = [] → (s.publish (.documentRemoved f)).timers.waiting = [] := by
      intro s hparts hw
      have hdrop : ((s.forget f).dropEdges f).timers = s.timers.cancel f := by
        unfold dropEdges
        split_ifs
        · rw [announce_eq]
          rfl
        · rfl
      have htimers : (s.publish (.documentRemoved f)).timers = s.timers.cancel f := by
        rw [publish_eq_foldl, hparts]
        exact hdrop
      rw [htimers, cancel_of_waiting hw, hw]
    exact (h.reaches (h.toAgrees.removed f) (follows_publish s _).reaches
      (follows_publish t _).reaches (hwaiting h.parts h.waiting)
      (hwaiting h.parts' h.waiting')).flush

/-- So it is with what the buffer publishes. -/
theorem publishFromBuffer (h : Twins s t) (f : String) {n : Notice}
    (hn : n = .documentAdded f ∨ n = .contentChanged f ∨ n = .documentRemoved f) :
    Twins (s.publishFromBuffer n) (t.publishFromBuffer n).flush := by
  unfold Session.publishFromBuffer
  rw [h.buffer]
  split_ifs
  · exact h.publish f hn
  · exact h.flush

/-- And with putting a document into it. -/
theorem put (h : Twins s t) (d : Document) :
    Twins { s with buffer := s.buffer.put d } { t with buffer := t.buffer.put d } :=
  h.moves (h.toAgrees.setBuffer (by rw [h.buffer])) (.put s d) (.put t d) rfl rfl

theorem note (h : Twins s t) (said : Diagnostic) : Twins (s.note said) (t.note said).flush :=
  (h.moves (h.toAgrees.note said said) (.note s _) (.note t _) rfl rfl).flush

end Twins

/-- Whether a file is opened, changed, closed or indexed at once; failures may be arranged too. -/
def Op.direct : Op → Bool
  | .openDocument .. | .update .. | .edit .. | .close _ | .recompute _ | .setFault _ => true
  | _ => false

/-- Twins remain twins if the one with a clock is flushed after every operation. -/
theorem Twins.step (h : Twins s t) {op : Op} (hop : op.direct = true) :
    Twins (s.step op).1 (t.step op).1.flush := by
  cases op with
  | openDocument f content language version =>
    have hopening : t.buffer.opening f content language version =
        s.buffer.opening f content language version := by rw [h.buffer]
    simp only [Session.step, openDocument]
    rw [hopening]
    cases hd : s.buffer.get? f with
    | none =>
      simp only [Buffer.opening, hd, Notice.ofTopic?]
      exact (h.put _).publishFromBuffer f (Or.inl rfl)
    | some d =>
      simp only [Buffer.opening, hd, Notice.ofTopic?]
      exact (h.put _).publishFromBuffer f (Or.inr (Or.inl rfl))
  | update f content =>
    simp only [Session.step, update]
    rw [← h.buffer]
    split
    · exact h.note _
    · exact (h.put _).publishFromBuffer _ (Or.inr (Or.inl rfl))
  | edit f first last text =>
    simp only [Session.step, edit]
    rw [← h.buffer]
    split
    · exact h.note _
    · exact (h.put _).publishFromBuffer _ (Or.inr (Or.inl rfl))
  | close f =>
    have hget : t.buffer.get? f = s.buffer.get? f := by rw [h.buffer]
    simp only [Session.step, close]
    rw [hget]
    split
    · exact h.flush
    · exact (h.moves (h.toAgrees.setBuffer (by rw [h.buffer])) (.remove s f) (.remove t f) rfl
        rfl).publishFromBuffer f (Or.inr (Or.inr rfl))
  | recompute f =>
    simp only [Session.step, recompute]
    rw [cancel_of_waiting h.waiting, cancel_of_waiting h.waiting']
    exact (h.pass f).flush
  | setFault fault =>
    have hfault : Agrees false { s with fault := fault } { t with fault := fault } :=
      { h.toAgrees with fault := rfl }
    exact (h.moves hfault (.fault s fault) (.fault t fault) rfl rfl).flush
  | _ => cases hop

/-! ### Construction -/

/-- Whether a file is open in a supported language. -/
def supports (s : Session) (f : String) : Bool := (s.file f).supported.isSome

/-- A document of a supported language is taken up. -/
theorem observe_of_supports (h : s.supports f = true) : s.observe f = (s.take f).schedule f := by
  obtain ⟨d, hd⟩ := Option.isSome_iff_exists.mp h
  have hopen : (s.buffer.get? f).filter (fun d => s.config.isSupported d.language) = some d := hd
  rw [observe, hopen]
  rfl

/-- Other ones are not. -/
theorem observe_of_not_supports (h : ¬ s.supports f = true) : s.observe f = s := by
  have hopen : (s.buffer.get? f).filter (fun d => s.config.isSupported d.language) = none :=
    Option.not_isSome_iff_eq_none.mp h
  rw [observe, hopen]

/-- The indexer looks at one file at a time. -/
theorem filter_supports_observe (hs : s.Regular) (hf : f ∉ files) :
    files.filter (s.observe f).supports = files.filter s.supports := by
  refine List.filter_congr fun g hg => ?_
  rw [supports, supports, (actsAt_observe hs f).file g, if_neg (ne_of_mem_of_not_mem hg hf)]

/-- Without a clock the files are taken up and indexed one by one. -/
theorem foldl_observe_unclocked (hfiles : files.Nodup) (hs : s.Regular) (hc : s.clocked = false)
    (hw : s.timers.waiting = []) (h : Agrees false s t) :
    Agrees false (files.foldl observe s)
        ((files.filter s.supports).foldl (fun t f => (t.take f).scheduledPass f) t) ∧
      (files.foldl observe s).timers.waiting = [] := by
  induction files generalizing s t with
  | nil => exact ⟨h, hw⟩
  | cons f files ih =>
    obtain ⟨hf, hrest⟩ := List.nodup_cons.mp hfiles
    have hreaches := (tends_observe s f).unfolds.reaches
    have hnext := fun t' => ih (t := t') hrest (hs.reaches hreaches)
      ((clocked_of_reaches hreaches).trans hc)
    rw [filter_supports_observe hs hf] at hnext
    rw [List.foldl_cons]
    by_cases hp : s.supports f = true
    · have hobserve : s.observe f = (s.take f).scheduledPass f :=
        (observe_of_supports hp).trans (schedule_of_unclocked (s := s.take f) hc hw f)
      rw [List.filter_cons_of_pos hp, List.foldl_cons]
      refine hnext _ ?_ ?_
      · rw [hobserve]
        exact waiting_of_timers (passes_scheduledPass (s.take f) f).timers hw
      · rw [hobserve]
        exact (h.take f).scheduledPass f
    · rw [List.filter_cons_of_neg hp]
      rw [observe_of_not_supports hp] at hnext ⊢
      exact hnext t hw h

/-- With a clock they are taken up, and wait in their order. -/
theorem foldl_observe_clocked (hfiles : files.Nodup) (hs : s.Regular) (hc : s.clocked = true)
    (h : Agrees false s t) (hkeys : ∀ f ∈ files, f ∉ s.timers.keys) :
    Agrees false (files.foldl observe s) ((files.filter s.supports).foldl take t) ∧
      (files.foldl observe s).timers.keys = s.timers.keys ++ files.filter s.supports := by
  induction files generalizing s t with
  | nil => exact ⟨h, by simp⟩
  | cons f files ih =>
    obtain ⟨hf, hrest⟩ := List.nodup_cons.mp hfiles
    have hreaches := (tends_observe s f).unfolds.reaches
    have hnext := fun t' => ih (t := t') hrest (hs.reaches hreaches)
      ((clocked_of_reaches hreaches).trans hc)
    rw [filter_supports_observe hs hf] at hnext
    rw [List.foldl_cons]
    by_cases hp : s.supports f = true
    · have hobserve : s.observe f =
          { s.take f with timers := s.timers.schedule s.config.delay f } := by
        rw [observe_of_supports hp, schedule, if_pos (show (s.take f).clocked = true from hc)]
        rfl
      have hwaits : (s.observe f).timers.keys = s.timers.keys ++ [f] := by
        have hgone : s.timers.keys.filter (· ≠ f) = s.timers.keys :=
          List.filter_eq_self.mpr fun g hg =>
            decide_eq_true (ne_of_mem_of_not_mem hg (hkeys f List.mem_cons_self))
        rw [hobserve, ← hgone, ← keys_cancel]
        simp [Timers.schedule, Timers.keys]
      have hagrees : Agrees false (s.observe f) (t.take f) := by
        rw [hobserve]
        exact { h.take f with clock := by simp }
      obtain ⟨hrestAgrees, hrestKeys⟩ := hnext (t.take f) hagrees fun g hg hin => by
        rw [hwaits, List.mem_append, List.mem_singleton] at hin
        exact hin.elim (hkeys g (List.mem_cons_of_mem f hg)) (ne_of_mem_of_not_mem hg hf)
      rw [List.filter_cons_of_pos hp, List.foldl_cons]
      refine ⟨hrestAgrees, ?_⟩
      rw [hrestKeys, hwaits, List.append_assoc]
      rfl
    · rw [List.filter_cons_of_neg hp]
      rw [observe_of_not_supports hp] at hnext ⊢
      exact hnext t h fun g hg => hkeys g (List.mem_cons_of_mem f hg)

/-- Whether the files are taken up one by one or all at first makes no difference. -/
theorem foldl_take_scheduledPass (hfiles : files.Nodup) (s : Session) :
    Agrees false (files.foldl (fun s f => (s.take f).scheduledPass f) s)
      (files.foldl scheduledPass (files.foldl take s)) := by
  have hlater : ∀ {f : String} {files : List String}, f ∉ files → ∀ s : Session,
      Agrees false (files.foldl take (s.scheduledPass f))
        ((files.foldl take s).scheduledPass f) := by
    intro f files
    induction files with
    | nil => exact fun _ s => .refl _
    | cons g files ih =>
      intro hf s
      rw [List.mem_cons, not_or] at hf
      refine Agrees.trans ?_ (ih hf.2 (s.take g))
      exact List.foldl_rel (take_scheduledPass s (Ne.symm hf.1)) fun x _ _ _ h => h.take x
  induction files generalizing s with
  | nil => exact .refl s
  | cons f files ih =>
    obtain ⟨hf, hrest⟩ := List.nodup_cons.mp hfiles
    refine (ih hrest ((s.take f).scheduledPass f)).trans ?_
    exact List.foldl_rel (hlater hf (s.take f)) fun x _ _ _ h => h.scheduledPass x

/-- What is indexed one by one without a clock is indexed in one flush with a clock. -/
theorem Twins.start (h : Twins s t) (hs : s.Regular) (ht : t.Regular) (said : Diagnostic) :
    Twins (s.start.note said) (t.start.note said).flush := by
  have hkeys : t.timers.keys = [] := by rw [Timers.keys, h.waiting', List.map_nil]
  have hsupports : t.supports = s.supports := by
    funext f
    exact (congrArg Option.isSome (h.supported f)).symm
  obtain ⟨hone, hdone⟩ := foldl_observe_unclocked hs.files hs h.unclocked h.waiting h.toAgrees
  obtain ⟨hall, hwaits⟩ := foldl_observe_clocked ht.files ht h.clocked (.refl t) (by simp [hkeys])
  rw [hkeys, List.nil_append, hsupports, ← h.buffer] at hwaits
  rw [hsupports, ← h.buffer] at hall
  have htaken : Agrees false (t.start.note said)
      ((s.buffer.files.filter s.supports).foldl take t) := by
    rw [Session.start, ← h.buffer]
    exact (Agrees.noted _ said).symm.trans hall
  have hkeys' : (t.start.note said).timers.keys = s.buffer.files.filter s.supports := by
    rw [← hwaits, h.buffer]
    rfl
  obtain ⟨hflush, hdone'⟩ := flush_agrees (hkeys' ▸ hs.files.filter _) htaken
  rw [hkeys'] at hflush
  have hstart : Op.start.disposes = false := rfl
  have hflushes : Op.flush.disposes = false := rfl
  refine h.reaches ?_ ((follows_step s hstart).reaches.tail (.note _ _))
    (((follows_step t hstart).reaches.tail (.note _ _)).trans (follows_step _ hflushes).reaches)
    hdone hdone'
  have hpasses := hone.trans (foldl_take_scheduledPass (hs.files.filter _) t)
  exact (Agrees.noted _ said).symm.trans (hpasses.trans hflush.symm)

/-- New sessions are twins once all is flushed. -/
theorem twins_new (config : Config) (documents : List Document) :
    Twins (new config false (.holding documents)) (new config true (.holding documents)).flush := by
  have hblank : Twins (blank config false (.holding documents) [.indexer, .graph, .history])
      (blank config true (.holding documents) [.indexer, .graph, .history]) :=
    ⟨⟨rfl, rfl, .refl _, rfl, rfl, rfl, rfl, by simp⟩, rfl, rfl, rfl, rfl, rfl, rfl⟩
  exact hblank.start (regular_blank config false documents) (regular_blank config true documents) _

/-! ### Runs -/

/-- Operations with a flush at first and after each of them. -/
def Op.flushing (ops : List Op) : List Op := .flush :: ops.flatMap fun op => [op, .flush]

/-- **Flushing after each operation is the same as having no clock.** -/
theorem Twins.run (h : Twins s t) {ops : List Op} (hops : ∀ op ∈ ops, op.direct = true) :
    Twins (s.run ops) (t.run (ops.flatMap fun op => [op, .flush])) := by
  induction ops generalizing s t with
  | nil => exact h
  | cons op ops ih =>
    rw [List.forall_mem_cons] at hops
    exact ih (h.step hops.1) hops.2

/-- **Waiting changes nothing but the time.**  Documents are opened, changed, closed and indexed at
will, in a session without a clock and in a session with one that is flushed at first and after
every operation.  Then both hold the same documents, track the same files, have the same snapshots
and lineages, the same edges, callers and callees, the same events with their numbers and versions
and the same baselines, and nothing waits in either. -/
theorem flushed_eq_unclocked (config : Config) (documents : List Document) {ops : List Op}
    (hops : ∀ op ∈ ops, op.direct = true) :
    let s := (new config false (.holding documents)).run ops
    let t := (new config true (.holding documents)).run (Op.flushing ops)
    s.buffer = t.buffer ∧ s.index = t.index ∧ s.graph = t.graph ∧ s.history = t.history ∧
      s.timers.waiting = [] ∧ t.timers.waiting = [] := by
  have h := (twins_new config documents).run hops
  exact ⟨h.buffer, h.index, h.graph, h.history, h.waiting, h.waiting'⟩

/-- A function and the call of it are renamed, while another file is emptied, indexed again, closed
and opened once more. -/
def renamingAtOnce : List Op :=
  [.edit "a" 15 16 "k".toList, .update "b" [], .recompute "b", .edit "a" 31 32 "k".toList,
    .close "b", .openDocument "b" "function h() { h(); }".toList "typescript" 5,
    .openDocument "a" "function k() {}".toList "typescript" 0]

/-- One event is of the one file and four of the other, and one call is left, whether there is a
clock or not. -/
theorem renamingAtOnce_eq :
    let documents : List Document :=
      [⟨"a", "function f() { g(); }\nfunction g() {}".toList, "typescript", 1⟩,
        ⟨"b", "function h() {}".toList, "typescript", 3⟩]
    let s := (new .default false (.holding documents)).run renamingAtOnce
    let t := (new .default true (.holding documents)).run (Op.flushing renamingAtOnce)
    (t.history.eventsOf "a").map Event.number = [2, 3, 4, 5] ∧
      (t.graph.callers "b::h@1").length = 1 ∧
      s.buffer = t.buffer ∧ s.index = t.index ∧ s.graph = t.graph ∧ s.history = t.history ∧
      s.timers.waiting = [] ∧ t.timers.waiting = [] := by
  refine ⟨by decide +kernel, by decide +kernel, ?_⟩
  exact flushed_eq_unclocked .default _ (by decide)

end Session
end SymbolAtlas
