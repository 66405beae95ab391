import SymbolAtlas.Proofs.CallIndex
import SymbolAtlas.Proofs.Change
import SymbolAtlas.Proofs.Fresh

/-!
# What is written into the history

A history is written to in three ways only: a snapshot is compared with the baseline of its file,
a snapshot is missed, or a baseline is forgotten (`History.Writes`).  An operation writes at most
once about each file, whoever is registered in whatever order and whatever is made to fail
(`Session.Tidy.advances_step`).  So the state of a file between two operations tells all that was
recorded of it, and the numbers of its events go up.
-/

namespace SymbolAtlas

/-! ### Snapshots with a title -/

/-- A snapshot of the file `f` in which the file's own symbol goes by the file's name. -/
structure Snapshot.Titled (f : String) (c : Snapshot) : Prop where
  identified : Lineage.Identified f c
  title : c.names.get? (fileSymbolId f) = some (fileName f)

/-- Ids that name the file of a document title its snapshot. -/
theorem Snapshot.titled_ofOutline (d : Document) {ids : List String}
    (h : Lineage.Identified d.fileId (ofOutline d (Outline.ofText d.content) ids)) :
    (ofOutline d (Outline.ofText d.content) ids).Titled d.fileId := by
  refine ⟨h, Entries.get?_ofList_cons _ fun hin => ?_⟩
  -- a declaration has an id of another shape
  rw [List.map_map] at hin
  obtain ⟨x, hx, hid⟩ := List.mem_map.mp hin
  have hkind : x.kind ≠ .file := by
    obtain ⟨⟨e, id⟩, he, rfl⟩ := List.mem_map.mp hx
    exact kind_ne_file (List.of_mem_zip he).1
  have hshape := (h x (List.mem_cons_of_mem _ hx)).2 hkind
  rw [show x.id = fileSymbolId d.fileId from hid] at hshape
  unfold Lineage.HasShape at hshape
  split_ifs at hshape
  · exact (not_isIdOf_fileSymbolId d.fileId d.fileId).2 hshape
  · exact (not_isIdOf_fileSymbolId d.fileId d.fileId).1 hshape

/-! ### Histories -/

namespace History

variable {h h' : History} {g : String}

/-- Records changes of a file one after the other. -/
def addAll (h : History) (f : String) (version : Int) (cs : List Change) : History :=
  cs.foldl (fun h c => h.add (h.nextEvent f version c)) h

/-- The events that record changes, numbered from `n + 1` on. -/
def eventsFrom (n : Nat) (f : String) (version : Int) : List Change → List Event
  | [] => []
  | c :: cs => ⟨n + 1, f, version, c⟩ :: eventsFrom (n + 1) f version cs

/-- The events tell of the changes, in order. -/
theorem map_change_eventsFrom (n : Nat) (f : String) (version : Int) (cs : List Change) :
    (eventsFrom n f version cs).map Event.change = cs := by
  induction cs generalizing n with
  | nil => rfl
  | cons c cs ih => rw [eventsFrom, List.map_cons, ih]

/-- And of the version in which these were found. -/
theorem map_eventsFrom (n : Nat) (f : String) (version : Int) (cs : List Change) :
    (eventsFrom n f version cs).map (fun e => (e.version, e.change)) =
      cs.map fun change => (version, change) := by
  induction cs generalizing n with
  | nil => rfl
  | cons c cs ih => rw [eventsFrom, List.map_cons, ih, List.map_cons]

/-- Changes are added to the log of one file. -/
theorem ofFile_addAll (h : History) (f : String) (version : Int) (cs : List Change) (g : String) :
    (h.addAll f version cs).ofFile g =
      if g = f then
        { h.ofFile g with events := (h.ofFile g).events ++ eventsFrom h.recorded f version cs }
      else h.ofFile g := by
  induction cs generalizing h with
  | nil =>
    rw [addAll, List.foldl_nil, eventsFrom, List.append_nil]
    split_ifs <;> rfl
  | cons c cs ih =>
    have hrest := ih (h.add (h.nextEvent f version c))
    rw [ofFile_add] at hrest
    refine hrest.trans ?_
    split_ifs with hg hne hne
    · rw [List.append_assoc]
      rfl
    · exact absurd hg hne
    · exact absurd hne hg
    · rfl

/-- The events of each file bear its id and are numbered in their order, and no number is above the
count. -/
structure Ordered (h : History) : Prop where
  filed : ∀ f, ∀ e ∈ h.eventsOf f, e.fileId = f
  sorted : ∀ f, ((h.eventsOf f).map Event.number).Pairwise (· < ·)
  counted : ∀ f, ∀ e ∈ h.eventsOf f, e.number ≤ h.recorded

/-- Where nothing is recorded, all is in order. -/
theorem ordered_empty : empty.Ordered := by
  refine ⟨fun f e he => ?_, fun _ => .nil, fun f e he => ?_⟩
  · simp [eventsOf, ofFile, empty] at he
  · simp [eventsOf, ofFile, empty] at he

/-- Order is a matter of the events and of their count. -/
theorem Ordered.of_eventsOf (ho : h.Ordered) (hevents : ∀ f, h'.eventsOf f = h.eventsOf f)
    (hrecorded : h'.recorded = h.recorded) : h'.Ordered := by
  refine ⟨fun f e he => ?_, fun f => ?_, fun f e he => ?_⟩
  · rw [hevents] at he
    exact ho.filed f e he
  · rw [hevents]
    exact ho.sorted f
  · rw [hevents] at he
    rw [hrecorded]
    exact ho.counted f e he

/-- A file can become known. -/
theorem Ordered.know (ho : h.Ordered) (f : String) : (h.know f).Ordered := by
  refine ho.of_eventsOf (fun g => by rw [eventsOf, ofFile_know, eventsOf]) ?_
  unfold History.know
  split_ifs <;> rfl

/-- Baselines have nothing to do with the order. -/
theorem Ordered.setBaseline (ho : h.Ordered) (f : String) (baseline : Option Snapshot) :
    (h.setBaseline f baseline).Ordered := by
  refine ho.of_eventsOf (fun g => ?_) rfl
  rw [eventsOf, ofFile_setBaseline, eventsOf]
  split_ifs <;> rfl

theorem Ordered.forgetBaseline (ho : h.Ordered) (f : String) : (h.forgetBaseline f).Ordered := by
  unfold History.forgetBaseline
  split_ifs
  · exact ho.setBaseline f none
  · exact ho

/-- The next event comes last. -/
theorem Ordered.add (ho : h.Ordered) (f : String) (version : Int) (c : Change) :
    (h.add (h.nextEvent f version c)).Ordered := by
  have hrecorded : (h.add (h.nextEvent f version c)).recorded = h.recorded + 1 := rfl
  have hevents : ∀ g, (h.add (h.nextEvent f version c)).eventsOf g =
      if g = f then h.eventsOf g ++ [h.nextEvent f version c] else h.eventsOf g := by
    intro g
    rw [eventsOf, ofFile_add, eventsOf]
    split_ifs with hg hne hne
    · rfl
    · exact absurd hg hne
    · exact absurd hne hg
    · rfl
  refine ⟨fun g e he => ?_, fun g => ?_, fun g e he => ?_⟩
  · rw [hevents] at he
    split_ifs at he with hg
    · rcases List.mem_append.mp he with hin | hin
      · exact ho.filed g e hin
      · rw [List.mem_singleton.mp hin, hg]
        rfl
    · exact ho.filed g e he
  · rw [hevents]
    split_ifs
    · rw [List.map_append, List.pairwise_append]
      refine ⟨ho.sorted g, List.pairwise_singleton .., fun n hn m hm => ?_⟩
      obtain ⟨e, he, rfl⟩ := List.mem_map.mp hn
      obtain rfl : m = h.recorded + 1 := by simpa [nextEvent] using hm
      have := ho.counted g e he
      omega
    · exact ho.sorted g
  · rw [hevents] at he
    have hold : e ∈ h.eventsOf g → e.number ≤ h.recorded + 1 := fun hin => by
      have := ho.counted g e hin
      omega
    split_ifs at he
    · rcases List.mem_append.mp he with hin | hin
      · exact hold hin
      · rw [List.mem_singleton.mp hin]
        exact Nat.le_refl _
    · exact hold he

/-- So do further ones. -/
theorem Ordered.addAll (ho : h.Ordered) (f : String) (version : Int) (cs : List Change) :
    (h.addAll f version cs).Ordered := by
  induction cs generalizing h with
  | nil => exact ho
  | cons c cs ih => exact ih (ho.add f version c)

/-! ### Writing about one file -/

/-- What can be written into a history about the file `g` at once. -/
inductive Writes (g : String) (h : History) : History → Prop
  | same : Writes g h h
  | missed : Writes g h (h.know g)
  | compared {c : Snapshot} (hc : c.Titled g) :
      Writes g h (((h.know g).setBaseline g (some c)).addAll g c.version
        ((h.know g).changesWith g c))
  | closed : Writes g h (h.forgetBaseline g)

/-- What becomes of the history of the file `f` if something is written about it once. -/
inductive Logs (f : String) (x : FileHistory) : FileHistory → Prop
  | same : Logs f x x
  | first {c : Snapshot} (hc : c.Titled f) (hx : x.baseline = none) : Logs f x ⟨x.events, some c⟩
  | compared {b c : Snapshot} (hc : c.Titled f) (hx : x.baseline = some b) (n : Nat) :
      Logs f x ⟨x.events ++ eventsFrom n f c.version (b.changesTo c), some c⟩
  | closed : Logs f x ⟨x.events, none⟩

/-- What is written about one file leaves the others alone. -/
theorem Writes.ofFile_of_ne (hw : Writes g h h') {f : String} (hf : f ≠ g) :
    h'.ofFile f = h.ofFile f := by
  cases hw with
  | same => rfl
  | missed => exact ofFile_know h g f
  | compared =>
    rw [ofFile_addAll, if_neg hf, ofFile_setBaseline, if_neg hf, ofFile_know]
  | closed => rw [ofFile_forgetBaseline, if_neg hf]

/-- The log of a file grows by what is written about it. -/
theorem Writes.logs (hw : Writes g h h') : Logs g (h.ofFile g) (h'.ofFile g) := by
  cases hw with
  | same => exact .same
  | missed =>
    rw [ofFile_know]
    exact .same
  | compared hc =>
    rw [ofFile_addAll, if_pos rfl, ofFile_setBaseline, if_pos rfl, changesWith, ofFile_know]
    cases hx : (h.ofFile g).baseline with
    | none =>
      dsimp only
      rw [eventsFrom, List.append_nil]
      exact .first hc hx
    | some b => exact .compared hc hx _
  | closed =>
    rw [ofFile_forgetBaseline, if_pos rfl]
    exact .closed

/-- What is written keeps the events in order. -/
theorem Writes.ordered (hw : Writes g h h') (ho : h.Ordered) : h'.Ordered := by
  cases hw with
  | same => exact ho
  | missed => exact ho.know g
  | compared => exact ((ho.know g).setBaseline g _).addAll g _ _
  | closed => exact ho.forgetBaseline g

/-- At most one thing is written about each file, and events stay in their order. -/
structure Advances (h h' : History) : Prop where
  logs : ∀ f, Logs f (h.ofFile f) (h'.ofFile f)
  ordered : h.Ordered → h'.Ordered

theorem advances_refl (h : History) : Advances h h := ⟨fun _ => .same, id⟩

/-- Writing is one way to advance. -/
theorem Writes.advances (hw : Writes g h h') : Advances h h' := by
  refine ⟨fun f => ?_, hw.ordered⟩
  by_cases hf : f = g
  · exact hf ▸ hw.logs
  · rw [hw.ofFile_of_ne hf]
    exact .same

end History

/-! ### Sessions in which each subscriber is told once -/

namespace Session

variable {s t : Session} {g : String} {cs : List Call} {forced : Bool}

/-- What every operation keeps: documents, timers and subscribers are there once, and snapshots are
those of their files. -/
structure Tidy (s : Session) : Prop extends Filed s where
  subscribers : s.subscribers.Nodup
  identifies : s.Identifies
  titled : ∀ f c, s.snapshot? f = some c → c.Titled f

/-- Every move keeps a session tidy. -/
theorem Tidy.moves (h : s.Tidy) (hm : Moves s t) : t.Tidy := by
  have hidentifies := h.identifies.moves hm
  refine ⟨h.toFiled.moves hm, hm.subscribers ▸ h.subscribers, hidentifies, fun f c hc => ?_⟩
  have hidentified := hidentifies.snapshots f c hc
  rcases hm.snapshot_cases hc with hc | ⟨d, ids, l, rfl, -, rfl⟩
  · exact h.titled f c hc
  · exact Snapshot.titled_ofOutline d hidentified

/-- So do moves one after the other. -/
theorem Tidy.reaches (h : s.Tidy) (hr : Reaches s t) : t.Tidy := by
  induction hr with
  | refl => exact h
  | tail _ hm ih => exact ih.moves hm

/-- Unregistering leaves nobody registered twice. -/
theorem Tidy.unsubscribe (h : s.Tidy) (who : Subscriber) : (s.unsubscribe who).Tidy :=
  ⟨⟨h.filed, h.files, h.timers⟩, h.subscribers.filter _,
    ⟨h.identifies.lineages, h.identifies.snapshots, h.identifies.graph⟩, h.titled⟩

/-- Nor does registering. -/
theorem Tidy.subscribe (h : s.Tidy) (who : Subscriber) : (s.subscribe who).Tidy := by
  refine ⟨⟨h.filed, h.files, h.timers⟩, ?_,
    ⟨h.identifies.lineages, h.identifies.snapshots, h.identifies.graph⟩, h.titled⟩
  simp only [Session.subscribe, Registry.register]
  split_ifs with hin
  · exact h.subscribers
  · rw [← List.concat_eq_append]
    exact h.subscribers.concat hin

/-- What is disposed of is as tidy as what was never there. -/
theorem Tidy.dispose (h : s.Tidy) (part : Part) : (s.dispose part).Tidy := by
  have hidentifies := h.identifies.dispose part
  cases part with
  | history => exact h.unsubscribe .history
  | graph => exact ⟨⟨h.filed, h.files, h.timers⟩, h.subscribers.filter _, hidentifies, h.titled⟩
  | indexer =>
    refine ⟨⟨h.filed, h.files, List.nodup_nil⟩, h.subscribers.filter _, hidentifies, ?_⟩
    exact fun f c hc => by simp [Session.dispose, disposeIndexer, snapshot?, Index.empty] at hc
  | session =>
    refine ⟨⟨h.filed, h.files, List.nodup_nil⟩, ?_, hidentifies, ?_⟩
    · exact ((h.subscribers.filter _).filter _).filter _
    · exact fun f c hc => by simp [Session.dispose, disposeIndexer, snapshot?, Index.empty] at hc

/-- **Every operation keeps a session tidy.** -/
theorem Tidy.step (h : s.Tidy) (op : Op) : (s.step op).1.Tidy := by
  cases op with
  | dispose part => exact h.dispose part
  | _ => exact h.reaches (follows_step s rfl).reaches

/-- A session starts out tidy if nobody is registered twice. -/
theorem tidy_blank_of_nodup (config : Config) (clocked : Bool) (documents : List Document)
    {whos : List Subscriber} (hwhos : whos.Nodup) :
    (blank config clocked (.holding documents) whos).Tidy := by
  obtain ⟨hfiled, hfiles⟩ := Buffer.filed_holding documents
  refine ⟨⟨hfiled, hfiles, List.nodup_nil⟩, hwhos, identifies_blank .., fun f c hc => ?_⟩
  simp [blank, snapshot?, Index.empty] at hc

/-- The usual session does. -/
theorem tidy_blank (config : Config) (clocked : Bool) (documents : List Document) :
    (blank config clocked (.holding documents) [.indexer, .graph, .history]).Tidy :=
  tidy_blank_of_nodup config clocked documents (by decide)

/-! ### Passes -/

/-- Recording changes writes them into the history and does nothing else but tell. -/
theorem recordEach_eq (f : String) (version : Int) (cs : List Change) (s : Session) :
    ∃ heard, cs.foldl (recordChange f version) s =
      { s with history := s.history.addAll f version cs, heard := heard } := by
  induction cs generalizing s with
  | nil => exact ⟨s.heard, rfl⟩
  | cons c cs ih =>
    obtain ⟨heard, hrest⟩ := ih (recordChange f version s c)
    refine ⟨heard, ?_⟩
    rw [List.foldl_cons, hrest, recordChange, announce_eq]
    rfl

/-- The graph leaves everything else alone when it follows a snapshot. -/
theorem rebuildEdges_frame (s : Session) (f : String) :
    ∃ graph heard, s.rebuildEdges f = { s with graph := graph, heard := heard } := by
  unfold rebuildEdges
  cases s.snapshot? f with
  | none => exact ⟨s.graph, s.heard, rfl⟩
  | some c =>
    dsimp only
    split_ifs
    · exact ⟨s.graph, s.heard, rfl⟩
    · exact ⟨_, _, announce_eq _ _⟩

/-- So does the history. -/
theorem recordChanges_frame (s : Session) (f : String) :
    ∃ history heard, s.recordChanges f = { s with history := history, heard := heard } := by
  unfold recordChanges
  cases s.snapshot? f with
  | none => exact ⟨s.history, s.heard, rfl⟩
  | some c =>
    dsimp only
    split_ifs
    · exact ⟨_, s.heard, rfl⟩
    · obtain ⟨heard, heach⟩ := recordEach_eq f c.version ((s.history.know f).changesWith f c)
        { s with history := (s.history.know f).setBaseline f (some c) }
      exact ⟨_, heard, heach⟩

/-- Nobody who is told of a snapshot makes anything wait. -/
theorem timers_announceSnapshot (s : Session) (g : String) :
    (s.announceSnapshot g).timers = s.timers := by
  have hone : ∀ (s : Session) (who : Subscriber),
      (receiveSnapshot g s who).timers = s.timers := by
    intro s who
    cases who with
    | indexer | listener => rfl
    | graph =>
      obtain ⟨graph, heard, h⟩ := rebuildEdges_frame s g
      rw [receiveSnapshot, h]
    | history =>
      obtain ⟨history, heard, h⟩ := recordChanges_frame s g
      rw [receiveSnapshot, h]
  have hfold : ∀ (whos : List Subscriber) (s : Session),
      (whos.foldl (receiveSnapshot g) s).timers = s.timers := by
    intro whos
    induction whos with
    | nil => exact fun s => rfl
    | cons who whos ih =>
      intro s
      rw [List.foldl_cons, ih, hone]
  exact hfold (s.audience (.snapshotUpdated g)) s

/-- The history compares a snapshot with the baseline, or it misses it. -/
theorem writes_recordChanges (hs : s.Tidy) (g : String) :
    s.history.Writes g (s.recordChanges g).history := by
  unfold recordChanges
  cases hc : s.snapshot? g with
  | none => exact .same
  | some c =>
    dsimp only
    split_ifs
    · exact .missed
    · obtain ⟨heard, heach⟩ := recordEach_eq g c.version ((s.history.know g).changesWith g c)
        { s with history := (s.history.know g).setBaseline g (some c) }
      rw [heach]
      exact .compared (hs.titled g c hc)

/-- If of all subscribers one alone writes, at most one thing is written when all are told. -/
theorem writes_publish_of {n : Notice} (writer : Subscriber)
    (hquiet : ∀ s who, who ≠ writer → (receive n s who).history = s.history)
    (hwriter : ∀ s : Session, s.Tidy → s.history.Writes g (receive n s writer).history)
    (hs : s.Tidy) : s.history.Writes g (s.publish n).history := by
  have hothers : ∀ (whos : List Subscriber) (s : Session), writer ∉ whos →
      (whos.foldl (receive n) s).history = s.history := by
    intro whos
    induction whos with
    | nil => exact fun s _ => rfl
    | cons who whos ih =>
      intro s hnone
      rw [List.mem_cons, not_or] at hnone
      rw [List.foldl_cons, ih _ hnone.2, hquiet s who (Ne.symm hnone.1)]
  have hfold : ∀ (whos : List Subscriber) (s : Session), whos.Nodup → s.Tidy →
      s.history.Writes g (whos.foldl (receive n) s).history := by
    intro whos
    induction whos with
    | nil => exact fun s _ _ => .same
    | cons who whos ih =>
      intro s hnodup hs
      rw [List.nodup_cons] at hnodup
      rw [List.foldl_cons]
      by_cases hwho : who = writer
      · subst hwho
        rw [hothers whos _ hnodup.1]
        exact hwriter s hs
      · have hrest := ih _ hnodup.2 (hs.reaches (reaches_receive n s who))
        rwa [hquiet s who hwho] at hrest
  rw [publish_eq_foldl]
  exact hfold s.subscribers s hs.subscribers hs

/-- Of those who are told of a snapshot the history writes. -/
theorem writes_announceSnapshot (hs : s.Tidy) (g : String) :
    s.history.Writes g (s.announceSnapshot g).history := by
  refine writes_publish_of (n := .snapshotUpdated g) .history (fun s who hwho => ?_)
    (fun s hs => writes_recordChanges hs g) hs
  cases who with
  | indexer | listener => rfl
  | graph =>
    obtain ⟨graph, heard, h⟩ := rebuildEdges_frame s g
    rw [receive, receiveSnapshot, h]
  | history => exact absurd rfl hwho

/-- A pass writes about its own file, and once at most. -/
theorem Passes.writes (h : Passes g forced s cs t) (hs : s.Tidy) :
    s.history.Writes g t.history := by
  cases h with
  | idle | dropped | stranded => exact .same
  | installed hd hfault h =>
    have hput := Moves.install s hd.document h
    obtain rfl := hs.filed g _ hd.document
    exact writes_announceSnapshot (hs.moves hput) _

/-- So does whatever is done about the file. -/
theorem Tends.writes (h : Tends g s cs t) (hs : s.Tidy) : s.history.Writes g t.history := by
  cases h with
  | waits h =>
    cases h
    exact .same
  | passes h hp =>
    have hwrites := hp.writes (hs.reaches h.quiet.reaches)
    cases h
    exact hwrites

/-- A pass makes nothing wait. -/
theorem Passes.timers (h : Passes g forced s cs t) :
    t.timers = s.timers ∨ t.timers = s.timers.cancel g := by
  cases h with
  | idle | stranded => exact Or.inl rfl
  | dropped => exact Or.inr rfl
  | installed => exact Or.inl (timers_announceSnapshot _ _)

/-- A pass over a file that does not wait leaves the timers alone. -/
theorem timers_scheduledPass (h : s.timers.due? g = none) :
    (s.scheduledPass g).timers = s.timers := by
  rcases (passes_scheduledPass s g).timers with heq | heq
  · exact heq
  · rw [heq, Timers.cancel_of_due? h]

/-- A file that does not wait before a pass does not wait after it. -/
theorem Passes.due? (h : Passes g forced s cs t) {f : String} (hf : s.timers.due? f = none) :
    t.timers.due? f = none := by
  rcases h.timers with heq | heq
  · rw [heq, hf]
  · rw [heq, Timers.due?_cancel, hf, ite_self]

/-! ### Passes over many files -/

/-- From `s` to `t` waiting passes were made: about a file that does not wait nothing is written,
and a file about which something was written waits no more. -/
structure Passed (s t : Session) : Prop where
  idle : ∀ f, s.timers.due? f = none →
    t.timers.due? f = none ∧ t.history.ofFile f = s.history.ofFile f
  once : ∀ f, t.history.ofFile f = s.history.ofFile f ∨
    t.timers.due? f = none ∧ History.Logs f (s.history.ofFile f) (t.history.ofFile f)
  ordered : s.history.Ordered → t.history.Ordered

theorem passed_refl (s : Session) : Passed s s :=
  ⟨fun _ hf => ⟨hf, rfl⟩, fun _ => Or.inl rfl, id⟩

/-- Passes can be made in two goes. -/
theorem Passed.trans {u : Session} (h : Passed s t) (h' : Passed t u) : Passed s u := by
  refine ⟨fun f hf => ?_, fun f => ?_, fun ho => h'.ordered (h.ordered ho)⟩
  · obtain ⟨hdue, hfile⟩ := h.idle f hf
    obtain ⟨hdue', hfile'⟩ := h'.idle f hdue
    exact ⟨hdue', hfile'.trans hfile⟩
  · rcases h.once f with hsame | ⟨hdue, hlogs⟩
    · rw [← hsame]
      exact h'.once f
    · -- what has been passed over is not passed over again
      obtain ⟨hdue', hfile'⟩ := h'.idle f hdue
      exact Or.inr ⟨hdue', hfile' ▸ hlogs⟩

/-- Passes over many files advance the history. -/
theorem Passed.advances (h : Passed s t) : s.history.Advances t.history := by
  refine ⟨fun f => ?_, h.ordered⟩
  rcases h.once f with hsame | ⟨-, hlogs⟩
  · rw [hsame]
    exact .same
  · exact hlogs

/-- One waiting pass, whose timer is taken out first. -/
theorem passed_scheduledPass (ht : t.Tidy) (hwaiting : s.timers.due? g ≠ none)
    (hhistory : t.history = s.history)
    (hdue : ∀ f, t.timers.due? f = if f = g then none else s.timers.due? f) :
    Passed s (t.scheduledPass g) := by
  have hpass := passes_scheduledPass t g
  have hwrites := hpass.writes ht
  rw [hhistory] at hwrites
  refine ⟨fun f hf => ?_, fun f => ?_, hwrites.ordered⟩
  · have hne : f ≠ g := fun h => hwaiting (h ▸ hf)
    exact ⟨hpass.due? (by rw [hdue, if_neg hne, hf]), hwrites.ofFile_of_ne hne⟩
  · by_cases hfg : f = g
    · subst hfg
      exact Or.inr ⟨hpass.due? (by rw [hdue, if_pos rfl]), hwrites.logs⟩
    · exact Or.inl (hwrites.ofFile_of_ne hfg)

/-- Flushing a file makes its waiting pass. -/
theorem passed_flushFile (hs : s.Tidy) (g : String) : Passed s (s.flushFile g) := by
  unfold flushFile
  split_ifs with hp
  · refine passed_scheduledPass (hs.moves (.cancel s g)) (fun hnone => ?_) rfl
      (Timers.due?_cancel s.timers g)
    rw [Timers.isPending_eq, hnone] at hp
    exact Bool.false_ne_true hp
  · exact passed_refl s

/-- Flushing makes all waiting passes. -/
theorem passed_flush (hs : s.Tidy) : Passed s s.flush := by
  have hfold : ∀ (keys : List String) (s : Session), s.Tidy →
      Passed s (keys.foldl flushFile s) := by
    intro keys
    induction keys with
    | nil => exact fun s _ => passed_refl s
    | cons key keys ih =>
      intro s hs
      have hrest := ih _ (hs.reaches (tends_flushFile s key).unfolds.reaches)
      exact (passed_flushFile hs key).trans hrest
  exact hfold s.timers.keys s hs

/-- So does the clock, as far as they are due. -/
theorem passed_passUntil (hs : s.Tidy) (target : Int) (fuel : Nat) :
    Passed s (passUntil target fuel s) := by
  induction fuel generalizing s with
  | zero => exact passed_refl s
  | succ fuel ih =>
    rw [passUntil]
    cases hnext : s.timers.next? target with
    | none => exact passed_refl s
    | some timer =>
      have hgone := hs.moves (.goOff s timer)
      have hdue := Timers.due?_of_mem hs.timers (Timers.mem_of_next? hnext).1
      have hone := passed_scheduledPass hgone (s := s) (g := timer.key) (by simp [hdue]) rfl
        (Timers.due?_goOff s.timers timer)
      exact hone.trans (ih (hgone.reaches (passes_scheduledPass _ timer.key).unfolds.reaches))

/-- A start advances the history. -/
theorem advances_start (hs : s.Tidy) : s.history.Advances s.start.history := by
  have hfold : ∀ (files : List String) (s : Session), s.Tidy → files.Nodup →
      (∀ f, f ∉ files → (files.foldl observe s).history.ofFile f = s.history.ofFile f) ∧
        s.history.Advances (files.foldl observe s).history := by
    intro files
    induction files with
    | nil => exact fun s _ _ => ⟨fun f _ => rfl, History.advances_refl _⟩
    | cons g files ih =>
      intro s hs hnodup
      rw [List.nodup_cons] at hnodup
      have htends := tends_observe s g
      have hg := htends.writes hs
      obtain ⟨hout, hrest⟩ := ih _ (hs.reaches htends.unfolds.reaches) hnodup.2
      rw [List.foldl_cons]
      refine ⟨fun f hf => ?_, ⟨fun f => ?_, fun ho => hrest.ordered (hg.ordered ho)⟩⟩
      · rw [List.mem_cons, not_or] at hf
        rw [hout f hf.2, hg.ofFile_of_ne hf.1]
      · by_cases hfg : f = g
        · subst hfg
          rw [hout f hnodup.1]
          exact hg.logs
        · rw [← hg.ofFile_of_ne hfg]
          exact hrest.logs f
  exact (hfold s.buffer.files s hs hs.files).2

/-! ### Operations -/

/-- Whatever is published, at most one thing is written about one file. -/
theorem writes_publish (hs : s.Tidy) (n : Notice) :
    ∃ g, s.history.Writes g (s.publish n).history := by
  cases n with
  | documentAdded g =>
    refine ⟨g, writes_publish_of .indexer (fun s who hwho => ?_)
      (fun s hs => (tends_observe s g).writes hs) hs⟩
    cases who with
    | indexer => exact absurd rfl hwho
    | _ => rfl
  | contentChanged g =>
    refine ⟨g, writes_publish_of .indexer (fun s who hwho => ?_)
      (fun s hs => (tends_changed s g).writes hs) hs⟩
    cases who with
    | indexer => exact absurd rfl hwho
    | _ => rfl
  | documentRemoved g =>
    refine ⟨g, writes_publish_of .history (fun s who hwho => ?_) (fun s hs => .closed) hs⟩
    cases who with
    | indexer | listener => rfl
    | graph =>
      simp only [receive, receiveRemoved, dropEdges]
      split_ifs
      · rw [announce_eq]
      · rfl
    | history => exact absurd rfl hwho
  | snapshotUpdated g => exact ⟨g, writes_announceSnapshot hs g⟩
  | graphUpdated g =>
    have hsame : (s.announce (.graphUpdated g)).history = s.history := by rw [announce_eq]
    exact ⟨g, hsame ▸ .same⟩
  | historyRecorded e =>
    have hsame : (s.announce (.historyRecorded e)).history = s.history := by rw [announce_eq]
    exact ⟨e.fileId, hsame ▸ .same⟩

/-- So too for whatever is done with documents. -/
theorem Buffers.advances (h : Buffers s cs t) (hs : s.Tidy) : s.history.Advances t.history := by
  cases h with
  | notes | keeps => exact History.advances_refl _
  | @tells b n h hn =>
    obtain ⟨g, hg⟩ := writes_publish (hs.moves h.moves) n
    exact hg.advances

/-- **An operation writes at most once about each file**, whatever the operation. -/
theorem Tidy.advances_step (hs : s.Tidy) (op : Op) : s.history.Advances (s.step op).1.history := by
  cases op with
  | openDocument | update | edit | close | plant | uproot =>
    exact (buffers_step s rfl).advances hs
  | publish n =>
    obtain ⟨g, hg⟩ := writes_publish hs n
    exact hg.advances
  | advance ms =>
    have hpassed := passed_passUntil hs (s.timers.now + ms) s.timers.waiting.length
    exact hpassed.advances
  | flush => exact (passed_flush hs).advances
  | flushFile g => exact (passed_flushFile hs g).advances
  | start => exact advances_start hs
  | recompute g =>
    have hpass : Passes g true _ _ (s.recompute g).1 := passes_pass (by simp)
    exact (hpass.writes (hs.moves (.cancel s g))).advances
  | setFault fault => exact History.advances_refl _
  | dispose part => cases part <;> exact History.advances_refl _

end Session
end SymbolAtlas
