import SymbolAtlas.Proofs.Announcing
import SymbolAtlas.Proofs.EventLog

/-!
# How events come into the log

An operation calls subscribers, and some of these calls make the history record events.
`Session.Enters s cs es t` follows the log on the way: from `s` to `t`, with the calls `cs`, the
events `es` are entered one by one, and each is announced before the next one is recorded.  For
every operation the events are those that its calls of the history show (`Session.chronicles_step`):
whenever the history is told of a snapshot, what it finds changed against its baseline.

Three things follow of all moments on the way: the log only grows (`Enters.grows`), it grows by the
events (`Enters.holds`), and a listener has heard of all of them but the one it is being told of
(`Enters.inStep`).
-/

namespace SymbolAtlas

/-- The event that a notification announces. -/
def Notice.event? : Notice → Option Event
  | .historyRecorded e => some e
  | _ => none

namespace Session

/-- The events that the listener has heard of. -/
def heardEvents (s : Session) : List Event := s.heard.filterMap Notice.event?

/-- The events that the history records if it is told now that a file has a new snapshot. -/
def comparison (s : Session) (f : String) : List Event :=
  match s.snapshot? f with
  | none => []
  | some c =>
    if s.fault = some .changes && s.history.hasBaseline f then []
    else History.eventsFrom s.history.recorded f c.version (s.history.changesWith f c)

end Session

/-- The events that are recorded because of a call. -/
def Call.records (call : Call) : List Event :=
  match call.who, call.notice with
  | .history, .snapshotUpdated f => call.session.comparison f
  | _, _ => []

namespace Session

variable {s t : Session} {n : Notice} {cs : List Call}

/-- From `s` to `t` no event is recorded or announced, and the listener stays. -/
structure Undisturbed (s t : Session) : Prop where
  subscribers : t.subscribers.Sublist s.subscribers
  listener : .listener ∈ s.subscribers → .listener ∈ t.subscribers
  heard : t.heard = s.heard
  log : ∀ log, s.history.Holds log → t.history.Holds log

/-- From `s` to `t`, with the calls `cs` on the way, the events `es` are entered into the log. -/
inductive Enters : Session → List Call → List Event → Session → Prop
  | quiet {s t : Session} (h : Undisturbed s t) : Enters s [] [] t
  | call (s : Session) (who : Subscriber) {n : Notice} (hn : n.event? = none) :
      Enters s [⟨who, n, s⟩] [] (s.hear n who)
  | record (f : String) (version : Int) (s : Session) (c : Change) :
      Enters s (recordChangeCalls f version s c) [s.history.nextEvent f version c]
        (recordChange f version s c)
  | trans {s t u : Session} {cs ds : List Call} {es es' : List Event} (h : Enters s cs es t)
      (h' : Enters t ds es' u) : Enters s (cs ++ ds) (es ++ es') u

/-- The events that are entered are those that the calls show. -/
def Chronicles (s : Session) (cs : List Call) (t : Session) : Prop :=
  Enters s cs (cs.flatMap Call.records) t

/-! ### What is kept on the way -/

/-- Nothing is disturbed where nothing is heard or recorded. -/
theorem Undisturbed.of_history (hsubscribers : t.subscribers = s.subscribers)
    (hheard : t.heard = s.heard) (hhistory : t.history = s.history) : Undisturbed s t :=
  ⟨hsubscribers ▸ List.Sublist.refl _, fun h => hsubscribers ▸ h, hheard,
    fun _ hl => hhistory ▸ hl⟩

/-- Nobody but the listener cares for events. -/
theorem audience_historyRecorded (hs : s.subscribers.Nodup) (e : Event) :
    s.audience (.historyRecorded e) = if .listener ∈ s.subscribers then [.listener] else [] := by
  have hlistener : s.audience (.historyRecorded e) =
      List.replicate (s.subscribers.count .listener) .listener := by
    rw [← List.filter_beq]
    refine List.filter_congr fun who _ => ?_
    cases who <;> rfl
  rw [hlistener]
  split_ifs with hl
  · rw [List.count_eq_one_of_mem hs hl]
    rfl
  · rw [List.count_eq_zero_of_not_mem hl]
    rfl

/-- An event is recorded and then announced. -/
theorem recordChange_eq (f : String) (version : Int) (hs : s.subscribers.Nodup) (c : Change) :
    let e := s.history.nextEvent f version c
    recordChangeCalls f version s c = (if .listener ∈ s.subscribers then
        [⟨.listener, .historyRecorded e, { s with history := s.history.add e }⟩] else []) ∧
      (recordChange f version s c).heardEvents =
        s.heardEvents ++ if .listener ∈ s.subscribers then [e] else [] := by
  intro e
  constructor
  · rw [recordChangeCalls, announceCalls, deliverCalls,
      audience_historyRecorded (s := { s with history := s.history.add e }) hs]
    split_ifs <;> rfl
  · rw [recordChange, announce_eq, heardEvents, List.filterMap_append, heardEvents]
    split_ifs with hl
    · rw [List.count_eq_one_of_mem hs hl]
      rfl
    · rw [List.count_eq_zero_of_not_mem hl]
      rfl

/-- One event is recorded. -/
theorem history_recordChange (f : String) (version : Int) (s : Session) (c : Change) :
    (recordChange f version s c).history = s.history.add (s.history.nextEvent f version c) := by
  rw [recordChange, announce_eq]

/-- Nobody is unregistered by it. -/
theorem subscribers_recordChange (f : String) (version : Int) (s : Session) (c : Change) :
    (recordChange f version s c).subscribers = s.subscribers := by
  rw [recordChange, announce_eq]

theorem subscribers_hear (n : Notice) (s : Session) (who : Subscriber) :
    (s.hear n who).subscribers = s.subscribers := by
  cases who <;> rfl

theorem history_hear (n : Notice) (s : Session) (who : Subscriber) :
    (s.hear n who).history = s.history := by
  cases who <;> rfl

/-- Other notices tell of no event. -/
theorem heardEvents_hear (hn : n.event? = none) (s : Session) (who : Subscriber) :
    (s.hear n who).heardEvents = s.heardEvents := by
  cases who with
  | listener => simp [hear, heardEvents, hn]
  | _ => rfl

namespace Enters

variable {s t : Session} {cs : List Call} {es : List Event}

/-- Subscribers may go, but none come. -/
theorem sublist (h : Enters s cs es t) : t.subscribers.Sublist s.subscribers := by
  induction h with
  | quiet h => exact h.subscribers
  | call s who hn => rw [subscribers_hear]
  | record f version s c => rw [subscribers_recordChange]
  | trans _ _ ih ih' => exact ih'.trans ih

/-- The listener stays. -/
theorem listener (h : Enters s cs es t) (hl : .listener ∈ s.subscribers) :
    .listener ∈ t.subscribers := by
  induction h with
  | quiet h => exact h.listener hl
  | call s who hn => rwa [subscribers_hear]
  | record f version s c => rwa [subscribers_recordChange]
  | trans _ _ ih ih' => exact ih' (ih hl)

/-- **The log grows by the events that are entered.** -/
theorem holds (h : Enters s cs es t) {log : List Event} (hl : s.history.Holds log) :
    t.history.Holds (log ++ es) := by
  induction h generalizing log with
  | quiet h =>
    rw [List.append_nil]
    exact h.log log hl
  | call s who hn =>
    rw [history_hear, List.append_nil]
    exact hl
  | record f version s c =>
    rw [history_recordChange]
    exact hl.add f version c
  | trans _ _ ih ih' =>
    rw [← List.append_assoc]
    exact ih' (ih hl)

/-- The listener hears of the events that are entered. -/
theorem heardEvents_eq (h : Enters s cs es t) (hs : s.subscribers.Nodup) :
    t.heardEvents = s.heardEvents ++ if .listener ∈ s.subscribers then es else [] := by
  induction h with
  | quiet h => simp [heardEvents, h.heard]
  | call s who hn => simp [heardEvents_hear hn]
  | record f version s c => exact (recordChange_eq f version hs c).2
  | @trans s t u _ _ _ _ h h' ih ih' =>
    have hlistener : .listener ∈ t.subscribers ↔ .listener ∈ s.subscribers :=
      ⟨fun hl => h.sublist.subset hl, h.listener⟩
    rw [ih' (hs.sublist h.sublist), ih hs]
    by_cases hl : .listener ∈ s.subscribers
    · simp [hlistener, hl]
    · simp [hlistener, hl]

end Enters

/-- What has been recorded stays where it is in the log. -/
def Precedes (s t : Session) : Prop :=
  ∀ log, s.history.Holds log → ∃ es, t.history.Holds (log ++ es)

/-- A history precedes itself. -/
theorem Precedes.of_history (h : t.history = s.history) : Precedes s t :=
  fun log hl => ⟨[], by rwa [List.append_nil, h]⟩

theorem Precedes.trans {u : Session} (h : Precedes s t) (h' : Precedes t u) : Precedes s u := by
  intro log hl
  obtain ⟨es, hes⟩ := h log hl
  obtain ⟨es', hes'⟩ := h' _ hes
  exact ⟨es ++ es', by rwa [← List.append_assoc]⟩

/-- From `s` to `t` the log grows, and it does between the calls on the way. -/
structure Grows (s : Session) (cs : List Call) (t : Session) : Prop where
  first : ∀ call ∈ cs, Precedes s call.session
  between : (cs.map Call.session).Pairwise Precedes
  last : ∀ call ∈ cs, Precedes call.session t
  whole : Precedes s t

theorem Grows.trans {u : Session} {ds : List Call} (h : Grows s cs t) (h' : Grows t ds u) :
    Grows s (cs ++ ds) u := by
  refine ⟨fun call hcall => ?_, ?_, fun call hcall => ?_, h.whole.trans h'.whole⟩
  · rcases List.mem_append.mp hcall with hcall | hcall
    · exact h.first call hcall
    · exact h.whole.trans (h'.first call hcall)
  · rw [List.map_append, List.pairwise_append]
    refine ⟨h.between, h'.between, fun x hx y hy => ?_⟩
    obtain ⟨call, hcall, rfl⟩ := List.mem_map.mp hx
    obtain ⟨call', hcall', rfl⟩ := List.mem_map.mp hy
    exact (h.last call hcall).trans (h'.first call' hcall')
  · rcases List.mem_append.mp hcall with hcall | hcall
    · exact (h.last call hcall).trans h'.whole
    · exact h'.last call hcall

namespace Enters

variable {s t : Session} {cs : List Call} {es : List Event}

/-- What is entered comes after what there was. -/
theorem precedes (h : Enters s cs es t) : Precedes s t := fun _ hl => ⟨es, h.holds hl⟩

/-- Each call finds a log that goes on from the one before. -/
theorem grows (h : Enters s cs es t) (hs : s.subscribers.Nodup) : Grows s cs t := by
  induction h with
  | quiet h => exact ⟨by simp, .nil, by simp, (quiet h).precedes⟩
  | @call s who n hn =>
    have hheard : Precedes s (s.hear n who) := .of_history (history_hear n s who)
    refine ⟨fun call hcall => ?_, List.pairwise_singleton .., fun call hcall => ?_, hheard⟩
    · rw [List.mem_singleton.mp hcall]
      exact .of_history rfl
    · rwa [List.mem_singleton.mp hcall]
  | record f version s c =>
    have hadded := history_recordChange f version s c
    have hwhole := (record f version s c).precedes
    rw [(recordChange_eq f version hs c).1]
    split_ifs
    · refine ⟨fun call hcall log hl => ?_, List.pairwise_singleton .., fun call hcall => ?_, hwhole⟩
      · rw [List.mem_singleton.mp hcall]
        exact ⟨_, hl.add f version c⟩
      · rw [List.mem_singleton.mp hcall]
        exact .of_history hadded
    · exact ⟨by simp, .nil, by simp, hwhole⟩
  | trans h h' ih ih' => exact (ih hs).trans (ih' (hs.sublist h.sublist))

/-- **The listener is never behind by more than the event it is being told of.** -/
theorem inStep (h : Enters s cs es t) (hs : s.subscribers.Nodup) (hl : .listener ∈ s.subscribers)
    (hstep : s.history.Holds s.heardEvents) :
    (∀ call ∈ cs, call.session.history.Holds
        (call.session.heardEvents ++ call.notice.event?.toList)) ∧
      t.history.Holds t.heardEvents := by
  have hlast : ∀ {s t : Session} {cs : List Call} {es : List Event}, Enters s cs es t →
      s.subscribers.Nodup → .listener ∈ s.subscribers → s.history.Holds s.heardEvents →
      t.history.Holds t.heardEvents := by
    intro s t cs es h hs hl hstep
    rw [h.heardEvents_eq hs, if_pos hl]
    exact h.holds hstep
  refine ⟨?_, hlast h hs hl hstep⟩
  induction h with
  | quiet h => simp
  | @call s who n hn =>
    intro call hcall
    rw [List.mem_singleton.mp hcall, hn]
    simpa using hstep
  | record f version s c =>
    rw [(recordChange_eq f version hs c).1, if_pos hl]
    intro call hcall
    rw [List.mem_singleton.mp hcall]
    exact hstep.add f version c
  | trans h h' ih ih' =>
    intro call hcall
    rcases List.mem_append.mp hcall with hcall | hcall
    · exact ih hs hl hstep call hcall
    · exact ih' (hs.sublist h.sublist) (h.listener hl) (hlast h hs hl hstep) call hcall

end Enters

/-! ### Following the definitions -/

namespace Chronicles

variable {s t u : Session} {cs ds : List Call}

/-- Nothing that disturbs the log. -/
theorem silent (h : Undisturbed s t) : Chronicles s [] t := .quiet h

theorem refl (s : Session) : Chronicles s [] s := silent (.of_history rfl rfl rfl)

theorem trans (h : Chronicles s cs t) (h' : Chronicles t ds u) : Chronicles s (cs ++ ds) u := by
  unfold Chronicles
  rw [List.flatMap_append]
  exact Enters.trans h h'

/-- Something undisturbed may come first. -/
theorem after (h : Chronicles t cs u) (ht : Undisturbed s t) : Chronicles s cs u :=
  (silent ht).trans h

/-- Items are gone through one after the other. -/
theorem foldl {α : Type} {step : Session → α → Session} {calls : Session → α → List Call}
    (h : ∀ s a, Chronicles s (calls s a) (step s a)) (items : List α) (s : Session) :
    Chronicles s (callsOver step calls items s) (items.foldl step s) := by
  induction items generalizing s with
  | nil => exact refl s
  | cons a items ih => exact (h s a).trans (ih (step s a))

/-- Somebody is called who is not the history being told of a snapshot. -/
theorem call {who : Subscriber} (hn : n.event? = none) (hrecords : Call.records ⟨who, n, s⟩ = []) :
    Chronicles s [⟨who, n, s⟩] (s.hear n who) := by
  unfold Chronicles
  rw [List.flatMap_singleton, hrecords]
  exact .call s who hn

/-- Somebody is called and does something. -/
theorem act {who : Subscriber} (hn : n.event? = none) (hrecords : Call.records ⟨who, n, s⟩ = [])
    (h : Chronicles (s.hear n who) cs t) :
    Chronicles s (⟨who, n, s⟩ :: cs) t := (call hn hrecords).trans h

end Chronicles

/-- Nothing is recorded when something about the graph is announced. -/
theorem chronicles_announce (s : Session) (f : String) :
    Chronicles s (s.announceCalls (.graphUpdated f)) (s.announce (.graphUpdated f)) :=
  .foldl (fun s who => .call rfl (by cases who <;> rfl)) (s.audience (.graphUpdated f)) s

/-- New edges are no events. -/
theorem chronicles_rebuildEdges (s : Session) (f : String) :
    Chronicles s (s.rebuildEdgesCalls f) (s.rebuildEdges f) := by
  unfold rebuildEdgesCalls rebuildEdges
  cases s.snapshot? f with
  | none => exact .refl s
  | some c =>
    dsimp only
    split_ifs
    · exact .refl s
    · exact (chronicles_announce _ f).after (.of_history rfl rfl rfl)

/-- Changes are recorded one after the other. -/
theorem enters_recordEach (f : String) (version : Int) (changes : List Change) (s : Session) :
    Enters s (callsOver (recordChange f version) (recordChangeCalls f version) changes s)
      (History.eventsFrom s.history.recorded f version changes)
      (changes.foldl (recordChange f version) s) := by
  induction changes generalizing s with
  | nil => exact .quiet (.of_history rfl rfl rfl)
  | cons c changes ih =>
    have hrecorded : (recordChange f version s c).history.recorded = s.history.recorded + 1 :=
      congrArg History.recorded (history_recordChange f version s c)
    have hrest := ih (recordChange f version s c)
    rw [hrecorded] at hrest
    exact (Enters.record f version s c).trans hrest

/-- **What the history records when it is told of a snapshot.** -/
theorem enters_recordChanges (s : Session) (f : String) :
    Enters s (s.recordChangesCalls f) (s.comparison f) (s.recordChanges f) := by
  have hknow : ∀ log, s.history.Holds log → (s.history.know f).Holds log := fun _ hl => hl.know f
  have hbaseline : (s.history.know f).hasBaseline f = s.history.hasBaseline f := by
    rw [History.hasBaseline, History.ofFile_know, History.hasBaseline]
  unfold recordChangesCalls recordChanges comparison
  cases s.snapshot? f with
  | none => exact .quiet (.of_history rfl rfl rfl)
  | some c =>
    have hchanges : (s.history.know f).changesWith f c = s.history.changesWith f c := by
      rw [History.changesWith, History.changesWith, History.ofFile_know]
    simp only [hbaseline]
    split_ifs
    · exact .quiet ⟨List.Sublist.refl _, id, rfl, hknow⟩
    · have hset : Undisturbed s
          { s with history := (s.history.know f).setBaseline f (some c) } :=
        ⟨List.Sublist.refl _, id, rfl, fun log hl => (hknow log hl).setBaseline f (some c)⟩
      have heach := enters_recordEach f c.version (s.history.changesWith f c)
        { s with history := (s.history.know f).setBaseline f (some c) }
      have hrecorded : ((s.history.know f).setBaseline f (some c)).recorded = s.history.recorded :=
        History.recorded_know s.history f
      rw [hrecorded] at heach
      rw [hchanges]
      exact (Enters.quiet hset).trans heach

/-- What is made of a snapshot is entered and told. -/
theorem chronicles_receiveSnapshot (f : String) (s : Session) (who : Subscriber) :
    Chronicles s (⟨who, .snapshotUpdated f, s⟩ :: receiveSnapshotCalls f s who)
      (receiveSnapshot f s who) := by
  cases who with
  | indexer | listener => exact .call rfl rfl
  | graph => exact .act rfl rfl (chronicles_rebuildEdges s f)
  | history =>
    -- the call itself shows the events, and announcing them shows nothing more
    have hnone : (s.recordChangesCalls f).flatMap Call.records = [] := by
      rw [List.flatMap_eq_nil_iff]
      intro call hcall
      obtain ⟨-, e, he⟩ := (aside_recordChanges s f).calls call hcall
      rw [Call.records, he]
      cases call.who <;> rfl
    have henters := (Enters.call s .history (n := .snapshotUpdated f) rfl).trans
      (enters_recordChanges s f)
    unfold Chronicles
    rw [List.flatMap_cons, receiveSnapshotCalls, hnone, List.append_nil]
    exact henters

/-- The same for all subscribers. -/
theorem chronicles_announceSnapshot (s : Session) (f : String) :
    Chronicles s (s.announceSnapshotCalls f) (s.announceSnapshot f) :=
  .foldl (chronicles_receiveSnapshot f) (s.audience (.snapshotUpdated f)) s

/-- **A pass** has the history record what its calls show. -/
theorem Passes.chronicles {f : String} {forced : Bool} (h : Passes f forced s cs t) :
    Chronicles s cs t := by
  cases h with
  | idle | dropped | stranded => exact .silent (.of_history rfl rfl rfl)
  | installed => exact (chronicles_announceSnapshot _ _).after (.of_history rfl rfl rfl)

/-- Tending to a file enters what its pass finds. -/
theorem Tends.chronicles {f : String} (h : Tends f s cs t) : Chronicles s cs t := by
  cases h with
  | waits h =>
    cases h
    exact .silent (.of_history rfl rfl rfl)
  | passes h hp =>
    cases h
    exact hp.chronicles.after (.of_history rfl rfl rfl)

/-- Passes enter what they find, one after the other. -/
theorem chronicles_passUntil (target : Int) (fuel : Nat) (s : Session) :
    Chronicles s (passUntilCalls target fuel s) (passUntil target fuel s) := by
  induction fuel generalizing s with
  | zero => exact .refl s
  | succ fuel ih =>
    unfold passUntilCalls passUntil
    cases s.timers.next? target with
    | none => exact .refl s
    | some timer =>
      exact ((passes_scheduledPass _ timer.key).chronicles.trans (ih _)).after
        (.of_history rfl rfl rfl)

/-- Whoever is told something, its calls show what the history records. -/
theorem chronicles_receive (hn : n.event? = none) (s : Session) (who : Subscriber) :
    Chronicles s (⟨who, n, s⟩ :: receiveCalls n s who) (receive n s who) := by
  cases n with
  | documentAdded f =>
    cases who with
    | indexer => exact .act rfl rfl (tends_observe s f).chronicles
    | graph | history | listener => exact .call rfl rfl
  | contentChanged f =>
    cases who with
    | indexer => exact .act rfl rfl (tends_changed s f).chronicles
    | graph | history | listener => exact .call rfl rfl
  | documentRemoved f =>
    cases who with
    | indexer => exact .act rfl rfl (.silent (.of_history rfl rfl rfl))
    | graph =>
      refine .act rfl rfl ?_
      unfold receiveCalls dropEdgesCalls
      dsimp only [receive, receiveRemoved, dropEdges]
      split_ifs
      · exact (chronicles_announce _ f).after (.of_history rfl rfl rfl)
      · exact .refl s
    | history =>
      refine .act rfl rfl (.silent ⟨List.Sublist.refl _, id, rfl, fun log hl => ?_⟩)
      exact hl.forgetBaseline f
    | listener => exact .call rfl rfl
  | snapshotUpdated f => exact chronicles_receiveSnapshot f s who
  | graphUpdated f => exact .call rfl (by cases who <;> rfl)
  | historyRecorded e => cases hn

/-- What is published is no event, but may lead to some. -/
theorem chronicles_publish (s : Session) (hn : n.event? = none) :
    Chronicles s (s.publishCalls n) (s.publish n) :=
  .foldl (chronicles_receive hn) (s.audience n) s

/-- So it is with changes of the buffer. -/
theorem Buffers.chronicles (h : Buffers s cs t) : Chronicles s cs t := by
  cases h with
  | notes | keeps => exact .silent (.of_history rfl rfl rfl)
  | @tells b n h hn =>
    have hevent : n.event? = none := by
      cases n with
      | historyRecorded e => cases hn
      | _ => rfl
    exact (chronicles_publish _ hevent).after (.of_history rfl rfl rfl)

/-- Disposal leaves the log alone. -/
theorem undisturbed_dispose (s : Session) (part : Part) : Undisturbed s (s.dispose part) := by
  have hfilter : ∀ (whos : List Subscriber) (who : Subscriber),
      (Registry.unregister whos who).Sublist whos := fun _ _ => List.filter_sublist
  cases part with
  | history | graph | indexer =>
    refine ⟨hfilter _ _, fun hl => ?_, rfl, fun _ hlog => hlog⟩
    exact List.mem_filter.mpr ⟨hl, by decide⟩
  | session =>
    refine ⟨((hfilter _ _).trans (hfilter _ _)).trans (hfilter _ _), fun hl => ?_, rfl,
      fun _ hlog => hlog⟩
    exact List.mem_filter.mpr ⟨List.mem_filter.mpr ⟨List.mem_filter.mpr ⟨hl, by decide⟩,
      by decide⟩, by decide⟩

/-- Whether an event is announced that the history has not recorded. -/
def Op.pretends : Op → Bool
  | .publish (.historyRecorded _) => true
  | _ => false

/-- **Every operation enters the events that its calls show**, disposals included. -/
theorem chronicles_step (s : Session) {op : Op} (hop : op.pretends = false) :
    Chronicles s (s.calls op) (s.step op).1 := by
  cases op with
  | openDocument | update | edit | close | plant | uproot => exact (buffers_step s rfl).chronicles
  | setFault fault => exact .silent (.of_history rfl rfl rfl)
  | publish n =>
    refine chronicles_publish s ?_
    cases n with
    | historyRecorded e => cases hop
    | _ => rfl
  | advance ms =>
    have hpasses := chronicles_passUntil (s.timers.now + ms) s.timers.waiting.length s
    have hclock : Chronicles (passUntil (s.timers.now + ms) s.timers.waiting.length s) []
        (s.advance ms) := .silent (.of_history rfl rfl rfl)
    have hboth := hpasses.trans hclock
    rwa [List.append_nil] at hboth
  | flush => exact .foldl (fun s f => (tends_flushFile s f).chronicles) s.timers.keys s
  | flushFile f => exact (tends_flushFile s f).chronicles
  | start => exact .foldl (fun s f => (tends_observe s f).chronicles) s.buffer.files s
  | recompute f =>
    have hpass : Passes f true _ _ (s.recompute f).1 := passes_pass (by simp)
    exact hpass.chronicles.after (.of_history rfl rfl rfl)
  | dispose part => exact .silent (undisturbed_dispose s part)

end Session
end SymbolAtlas
