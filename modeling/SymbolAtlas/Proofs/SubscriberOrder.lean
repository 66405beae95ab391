import SymbolAtlas.Proofs.Agreement
import SymbolAtlas.Proofs.Fresh

/-!
# The order of the subscribers

Subscribers are told in the order in which they were registered, which the buffer, the indexer, the
graph and the history never rely on: sessions whose subscribers were registered in two different
orders agree at the beginning, every operation leads from sessions that agree to sessions that agree
(`Agrees.step`), and so whatever is done with them they hold the same documents, snapshots,
lineages, waiting passes, edges, events and baselines (`run_eq_of_perm`).
-/

namespace SymbolAtlas
namespace Session
namespace Agrees

variable {s t : Session}

theorem clocked (h : Agrees true s t) : s.clocked = t.clocked := (h.clock rfl).1

theorem timers (h : Agrees true s t) : s.timers = t.timers := (h.clock rfl).2

/-! ### Waiting -/

/-- Scheduling leads to the same. -/
theorem schedule (h : Agrees true s t) (f : String) :
    Agrees true (s.schedule f) (t.schedule f) := by
  unfold Session.schedule
  by_cases hc : s.clocked = true
  · rw [if_pos hc, if_pos (h.clocked ▸ hc)]
    exact h.setTimers fun _ => by rw [h.timers, h.config]
  · rw [if_neg hc, if_neg (h.clocked ▸ hc)]
    exact (h.cancel f).scheduledPass f

/-- So does flushing a file. -/
theorem flushFile (h : Agrees true s t) (f : String) :
    Agrees true (s.flushFile f) (t.flushFile f) := by
  unfold Session.flushFile
  rw [h.timers]
  split_ifs
  · exact (h.timers ▸ h.cancel f).scheduledPass f
  · exact h

/-- And flushing all. -/
theorem flush (h : Agrees true s t) : Agrees true s.flush t.flush := by
  rw [Session.flush, Session.flush, h.timers]
  exact List.foldl_rel h fun f _ _ _ hst => hst.flushFile f

/-- And the passes that are due. -/
theorem passUntil (target : Int) (fuel : Nat) (h : Agrees true s t) :
    Agrees true (s.passUntil target fuel) (t.passUntil target fuel) := by
  induction fuel generalizing s t with
  | zero => exact h
  | succ fuel ih =>
    unfold Session.passUntil
    rw [← h.timers]
    split
    · exact h
    · exact ih ((h.setTimers fun _ => rfl).scheduledPass _)

theorem advance (h : Agrees true s t) (ms : Int) : Agrees true (s.advance ms) (t.advance ms) := by
  have hpassed := h.passUntil (s.timers.now + ms) s.timers.waiting.length
  unfold Session.advance
  rw [← h.timers]
  exact hpassed.setTimers fun _ => by rw [hpassed.timers]

/-- Taking up a document leads to the same. -/
theorem observe (h : Agrees true s t) (f : String) :
    Agrees true (s.observe f) (t.observe f) := by
  unfold Session.observe
  rw [h.supported]
  cases (t.buffer.get? f).filter fun d => t.config.isSupported d.language with
  | none => exact h
  | some d => exact (h.setIndex (by rw [h.index])).schedule f

theorem start (h : Agrees true s t) : Agrees true s.start t.start := by
  rw [Session.start, Session.start, h.buffer]
  exact List.foldl_rel h fun f _ _ _ hst => hst.observe f

/-! ### Notifications -/

/-- Nobody but the indexer acts on a notification, so it does not matter when it is its turn. -/
theorem publish_of {n : Notice}
    (htell : ∀ {s t}, Agrees true s t → ∀ who, Agrees true (receive n s who) (receive n t who))
    (hidle : ∀ who, who ≠ .indexer → ∀ s, Agrees true s (receive n s who))
    (h : Agrees true s t) : Agrees true (s.publish n) (t.publish n) := by
  refine foldl_perm (equivalence true) (fun _ _ who hst => htell hst who) (fun s who who' => ?_)
    (h.subscribers.filter _) h
  by_cases hw : who = .indexer
  · by_cases hw' : who' = .indexer
    · rw [hw, hw']
      exact refl _
    · exact (tell_comm htell (hidle who' hw') s).symm
  · exact tell_comm htell (hidle who hw) s

/-- Every subscriber makes the same of an opened document. -/
theorem receiveAdded (h : Agrees true s t) (f : String) (who : Subscriber) :
    Agrees true (receiveAdded f s who) (receiveAdded f t who) := by
  cases who with
  | indexer => exact h.observe f
  | graph | history => exact h
  | listener =>
    exact (hear s (.documentAdded f) .listener).symm.trans
      (h.trans (hear t (.documentAdded f) .listener))

/-- And of a changed one. -/
theorem receiveChanged (h : Agrees true s t) (f : String) (who : Subscriber) :
    Agrees true (receiveChanged f s who) (receiveChanged f t who) := by
  cases who with
  | indexer =>
    simp only [Session.receiveChanged]
    rw [h.index]
    split_ifs
    · exact h.schedule f
    · exact h.observe f
  | graph | history => exact h
  | listener =>
    exact (hear s (.contentChanged f) .listener).symm.trans
      (h.trans (hear t (.contentChanged f) .listener))

/-- So whatever is published leads to the same. -/
theorem publish (h : Agrees true s t) (n : Notice) :
    Agrees true (s.publish n) (t.publish n) := by
  cases n with
  | documentAdded f =>
    refine publish_of (fun h => h.receiveAdded f) (fun who hw s => ?_) h
    cases who with
    | indexer => exact absurd rfl hw
    | graph | history => exact refl s
    | listener => exact hear s (.documentAdded f) .listener
  | contentChanged f =>
    refine publish_of (fun h => h.receiveChanged f) (fun who hw s => ?_) h
    cases who with
    | indexer => exact absurd rfl hw
    | graph | history => exact refl s
    | listener => exact hear s (.contentChanged f) .listener
  | documentRemoved f => exact h.removed f
  | snapshotUpdated f => exact h.announceSnapshot f
  | graphUpdated f => exact (announce s _).symm.trans (h.trans (announce t _))
  | historyRecorded e => exact (announce s _).symm.trans (h.trans (announce t _))

theorem publishFromBuffer (h : Agrees true s t) (n : Notice) :
    Agrees true (s.publishFromBuffer n) (t.publishFromBuffer n) := by
  unfold Session.publishFromBuffer
  rw [h.buffer]
  split_ifs
  · exact h.publish n
  · exact h

/-! ### Operations -/

/-- Opening a document does. -/
theorem openDocument (h : Agrees true s t) (f : String) (content : Text) (language : String)
    (version : Int) :
    Agrees true (s.openDocument f content language version).1
      (t.openDocument f content language version).1 := by
  unfold Session.openDocument
  rw [← h.buffer]
  dsimp only
  split
  · exact h.setBuffer rfl
  · exact (h.setBuffer rfl).publishFromBuffer _

theorem putNext (h : Agrees true s t) (d : Document) : Agrees true (s.putNext d) (t.putNext d) :=
  (h.setBuffer (by rw [h.buffer])).publishFromBuffer _

/-- So does changing one. -/
theorem update (h : Agrees true s t) (f : String) (content : Text) :
    Agrees true (s.update f content).1 (t.update f content).1 := by
  unfold Session.update
  rw [h.buffer]
  split
  · exact h.note _ _
  · exact h.putNext _

theorem edit (h : Agrees true s t) (f : String) (first last : Int) (text : Text) :
    Agrees true (s.edit f first last text).1 (t.edit f first last text).1 := by
  unfold Session.edit
  rw [h.buffer]
  split
  · exact h.note _ _
  · exact h.putNext _

/-- And closing one. -/
theorem close (h : Agrees true s t) (f : String) : Agrees true (s.close f).1 (t.close f).1 := by
  unfold Session.close
  rw [← h.buffer]
  split
  · exact h
  · exact (h.setBuffer rfl).publishFromBuffer _

theorem unsubscribe (h : Agrees true s t) (who : Subscriber) :
    Agrees true (s.unsubscribe who) (t.unsubscribe who) :=
  { h with subscribers := h.subscribers.filter _ }

/-- And disposal. -/
theorem dispose (h : Agrees true s t) (part : Part) :
    Agrees true (s.dispose part) (t.dispose part) := by
  have hgraph : ∀ {s t}, Agrees true s t → Agrees true s.disposeGraph t.disposeGraph :=
    fun h => (h.unsubscribe .graph).setGraph rfl
  have hindexer : ∀ {s t}, Agrees true s t → Agrees true s.disposeIndexer t.disposeIndexer :=
    fun {s t} h => { h.unsubscribe .indexer with
      index := rfl
      clock := fun _ => ⟨h.clocked, congrArg Timers.clear h.timers⟩ }
  cases part with
  | history => exact h.unsubscribe .history
  | graph => exact hgraph h
  | indexer => exact hindexer h
  | session => exact hindexer (hgraph (h.unsubscribe .history))

/-- Whatever is done with them, sessions that agree go on to agree. -/
theorem step (h : Agrees true s t) (op : Op) : Agrees true (s.step op).1 (t.step op).1 := by
  cases op with
  | openDocument f content language version => exact h.openDocument f content language version
  | update f content => exact h.update f content
  | edit f first last text => exact h.edit f first last text
  | close f => exact h.close f
  | plant d => exact h.setBuffer (by rw [h.buffer])
  | uproot f => exact h.setBuffer (by rw [h.buffer])
  | publish n => exact h.publish n
  | advance ms => exact h.advance ms
  | flush => exact h.flush
  | flushFile f => exact h.flushFile f
  | start => exact h.start
  | recompute f => exact (h.cancel f).pass f
  | setFault fault => exact { h with fault := rfl }
  | dispose part => exact h.dispose part

/-- **Runs of sessions that agree agree.** -/
theorem run (h : Agrees true s t) (ops : List Op) : Agrees true (s.run ops) (t.run ops) :=
  List.foldl_rel h fun op _ _ _ hst => hst.step op

end Agrees

/-- **The order of registration makes no difference.**  Two sessions begin over the same buffer,
with the same subscribers registered in different orders.  Whatever is then done with both of them,
each holds the same documents as the other, has the same snapshots and lineages, the same passes
wait at the same times, and the edges with their indexes, the events with their numbers and the
baselines are the same. -/
theorem run_eq_of_perm (config : Config) (clocked : Bool) (documents : List Document)
    {whos whos' : List Subscriber} (hperm : whos.Perm whos') (ops : List Op) :
    let s := (blank config clocked (.holding documents) whos).run ops
    let t := (blank config clocked (.holding documents) whos').run ops
    s.buffer = t.buffer ∧ s.index = t.index ∧ s.timers = t.timers ∧ s.graph = t.graph ∧
      s.history = t.history := by
  have hblank : Agrees true (blank config clocked (.holding documents) whos)
      (blank config clocked (.holding documents) whos') :=
    ⟨rfl, rfl, hperm, rfl, rfl, rfl, rfl, fun _ => ⟨rfl, rfl⟩⟩
  have hrun := hblank.run ops
  exact ⟨hrun.buffer, hrun.index, hrun.timers, hrun.graph, hrun.history⟩

/-- A function is renamed while another file is changed and closed. -/
def renamingMeanwhile : List Op :=
  [.openDocument "a" "function f() { g(); }\nfunction g() {}".toList "typescript" 1,
    .openDocument "b" "function h() { h(); }".toList "typescript" 1, .advance 250,
    .update "b" "function h() {}\nfunction m() {}".toList,
    .update "a" "function f() { k(); }\nfunction k() {}".toList, .advance 400, .close "b"]

/-- A listener hears of all this in another order.  The events have the same numbers nevertheless,
and the one call that is left is there. -/
theorem renamingMeanwhile_eq :
    let s := (blank .default true (.holding [])
      [.indexer, .graph, .history, .listener]).run renamingMeanwhile
    let t := (blank .default true (.holding [])
      [.listener, .history, .graph, .indexer]).run renamingMeanwhile
    s.heard ≠ t.heard ∧ (s.history.eventsOf "a").map Event.number = [2] ∧
      (s.graph.edgesOf "a").length = 1 ∧ s.buffer = t.buffer ∧ s.index = t.index ∧
      s.timers = t.timers ∧ s.graph = t.graph ∧ s.history = t.history := by
  refine ⟨by decide +kernel, by decide +kernel, by decide +kernel, ?_⟩
  exact run_eq_of_perm .default true [] (by decide) renamingMeanwhile

end Session
end SymbolAtlas
