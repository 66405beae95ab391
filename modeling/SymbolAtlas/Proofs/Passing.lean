import SymbolAtlas.Proofs.Recording

/-!
# What a pass does

A pass over a file is forced, or it is a scheduled one that is flushed, falls due, or is made at
once because there is no clock (`Session.PassOver`).  Whichever it is, it takes the file's timer
out first.  Then it finds nothing to do, or it is a pass like any other (`PassOver.begun`).

A pass that makes a snapshot ends in one way only (`installed_eq`), whoever is registered: the graph
takes the edges of the snapshot and the history compares it with the baseline, unless one of the two
is made to fail (`graphAfter`, `historyAfter`).  What it announces is about these steps and nothing
else (`Passes.maySay`).
-/

namespace SymbolAtlas

/-! ### Recording a snapshot -/

namespace History

/-- The history after a snapshot has been compared with the baseline of its file. -/
def recording (h : History) (f : String) (c : Snapshot) : History :=
  ((h.know f).setBaseline f (some c)).addAll f c.version ((h.know f).changesWith f c)

theorem know_of_hasBaseline {h : History} {f : String} (hb : h.hasBaseline f = true) :
    h.know f = h := by
  refine if_pos ?_
  unfold hasBaseline ofFile at hb
  cases hfile : h.files.get? f with
  | none => simp [hfile] at hb
  | some x => rw [Entries.has, hfile, Option.isSome_some]

theorem recorded_know (h : History) (f : String) : (h.know f).recorded = h.recorded := by
  unfold know
  split_ifs <;> rfl

/-- The changes are added to the events of the file, and the snapshot is its next baseline. -/
theorem ofFile_recording (h : History) (f : String) (c : Snapshot) (g : String) :
    (h.recording f c).ofFile g =
      if g = f then
        ⟨(h.ofFile f).events ++ eventsFrom h.recorded f c.version (h.changesWith f c), some c⟩
      else h.ofFile g := by
  have hrecorded : ((h.know f).setBaseline f (some c)).recorded = h.recorded := recorded_know h f
  have hchanges : (h.know f).changesWith f c = h.changesWith f c := by
    rw [changesWith, changesWith, ofFile_know]
  rw [recording, ofFile_addAll, ofFile_setBaseline, ofFile_know, hrecorded, hchanges]
  split_ifs with hg
  · rw [hg]
  · rfl

end History

namespace Session

variable {s t : Session} {f : String} {call : Call} {c : Snapshot} {forced : Bool}
  {cs : List Call}

/-! ### Following a new snapshot -/

/-- The graph after the snapshot `c` of the file `f`, unless edges fail. -/
def graphAfter (s : Session) (f : String) (c : Snapshot) : CallGraph :=
  if s.fault = some .edges then s.graph else s.graph.replace f c.callEdges

/-- The history after the snapshot `c` of the file `f`.  Without a baseline there is no comparison
that could fail. -/
def historyAfter (s : Session) (f : String) (c : Snapshot) : History :=
  if s.fault = some .changes && s.history.hasBaseline f then s.history
  else s.history.recording f c

theorem rebuildEdges_eq (hc : s.snapshot? f = some c) :
    ∃ heard, s.rebuildEdges f = { s with graph := s.graphAfter f c, heard := heard } := by
  unfold rebuildEdges graphAfter
  rw [hc]
  dsimp only
  split_ifs
  · exact ⟨s.heard, rfl⟩
  · exact ⟨_, announce_eq _ _⟩

theorem recordChanges_eq (hc : s.snapshot? f = some c) :
    ∃ heard, s.recordChanges f = { s with history := s.historyAfter f c, heard := heard } := by
  have hbaseline : (s.history.know f).hasBaseline f = s.history.hasBaseline f := by
    rw [History.hasBaseline, History.ofFile_know, History.hasBaseline]
  unfold recordChanges historyAfter
  rw [hc]
  simp only [hbaseline]
  split_ifs with hfails
  · rw [History.know_of_hasBaseline (Bool.and_eq_true_iff.mp hfails).2]
    exact ⟨s.heard, rfl⟩
  · exact recordEach_eq f c.version _ _

/-- Of the subscribers who are told of a snapshot, graph and history follow it. -/
theorem tellSnapshot_eq {whos : List Subscriber} (hwhos : whos.Nodup)
    (hc : s.snapshot? f = some c) :
    ∃ heard, whos.foldl (receiveSnapshot f) s =
      { s with
        graph := if .graph ∈ whos then s.graphAfter f c else s.graph
        history := if .history ∈ whos then s.historyAfter f c else s.history
        heard := heard } := by
  induction whos generalizing s with
  | nil => exact ⟨s.heard, by simp⟩
  | cons who whos ih =>
    rw [List.nodup_cons] at hwhos
    rw [List.foldl_cons]
    cases who with
    | indexer =>
      obtain ⟨heard, hrest⟩ := ih hwhos.2 hc
      exact ⟨heard, by simpa [receiveSnapshot] using hrest⟩
    | listener =>
      have hc' : { s with heard := s.heard ++ [Notice.snapshotUpdated f] }.snapshot? f =
          some c := hc
      obtain ⟨heard, hrest⟩ := ih hwhos.2 hc'
      refine ⟨heard, hrest.trans ?_⟩
      simp [graphAfter, historyAfter]
    | graph =>
      obtain ⟨before, hgraph⟩ := rebuildEdges_eq hc
      have hc' : { s with graph := s.graphAfter f c, heard := before }.snapshot? f = some c := hc
      obtain ⟨heard, hrest⟩ := ih hwhos.2 hc'
      refine ⟨heard, ?_⟩
      rw [receiveSnapshot, hgraph, hrest]
      simp [hwhos.1, historyAfter]
    | history =>
      obtain ⟨before, hhistory⟩ := recordChanges_eq hc
      have hc' : { s with history := s.historyAfter f c, heard := before }.snapshot? f =
          some c := hc
      obtain ⟨heard, hrest⟩ := ih hwhos.2 hc'
      refine ⟨heard, ?_⟩
      rw [receiveSnapshot, hhistory, hrest]
      simp [hwhos.1, graphAfter]

/-- **A pass that makes a snapshot ends in one way only.** -/
theorem installed_eq (hs : s.subscribers.Nodup) (d : Document) (ids : List String) (l : Lineage) :
    let c := Snapshot.ofOutline d (Outline.ofText d.content) ids
    ∃ heard, (s.withSnapshot d ids l).announceSnapshot d.fileId =
      { s.withSnapshot d ids l with
        graph := if .graph ∈ s.subscribers then s.graphAfter d.fileId c else s.graph
        history := if .history ∈ s.subscribers then s.historyAfter d.fileId c else s.history
        heard := heard } := by
  intro c
  have hc : (s.withSnapshot d ids l).snapshot? d.fileId = some c := by
    simp [snapshot?, Entries.get?_put, c]
  rw [announceSnapshot_eq_foldl]
  exact tellSnapshot_eq hs hc

/-- What making a snapshot comes to. -/
theorem install_eq (hs : s.subscribers.Nodup) {d : Document} {ids : List String} {l : Lineage}
    (hfault : s.fault ≠ some .outline) (ha : s.assignment d = (.ok ids, l)) :
    let c := Snapshot.ofOutline d (Outline.ofText d.content) ids
    ∃ heard, s.install d =
      ({ s.withSnapshot d ids l with
        graph := if .graph ∈ s.subscribers then s.graphAfter d.fileId c else s.graph
        history := if .history ∈ s.subscribers then s.historyAfter d.fileId c else s.history
        heard := heard }, some c) := by
  intro c
  obtain ⟨heard, htold⟩ := installed_eq hs d ids l
  refine ⟨heard, ?_⟩
  unfold install
  rw [if_neg hfault, ha]
  exact congrArg (·, some c) htold

/-! ### Passes that get so far -/

instance (s : Session) (f : String) (forced : Bool) (d : Document) :
    Decidable (s.Passable f forced d) :=
  decidable_of_iff (s.buffer.get? f = some d ∧ s.config.isSupported d.language = true ∧
      d.length ≤ s.config.maxDocumentChars ∧ ∀ c ∈ s.snapshot? f,
        c.version < d.version ∨ forced = true ∧ c.version = d.version)
    ⟨fun ⟨h₁, h₂, h₃, h₄⟩ => ⟨h₁, h₂, h₃, h₄⟩, fun ⟨h₁, h₂, h₃, h₄⟩ => ⟨h₁, h₂, h₃, h₄⟩⟩

/-- A pass over such a document makes its snapshot. -/
theorem Passable.pass_eq {d : Document} (h : s.Passable f forced d) : s.pass f = s.install d := by
  have hopen : (s.buffer.get? f).filter (fun d => s.config.isSupported d.language) = some d :=
    Option.filter_eq_some_iff.mpr ⟨h.document, h.language⟩
  unfold pass
  rw [hopen]
  dsimp only
  rw [if_neg (Int.not_lt.mpr h.length)]
  cases hc : s.snapshot? f with
  | none => rfl
  | some c =>
    have hversion := h.version c hc
    dsimp only
    rw [if_neg (by omega)]

/-- A pass over the file `f` makes no snapshot, though a document is open in a supported language:
it is too long or older than the snapshot, or its outline fails. -/
def Skips (s : Session) (f : String) : Prop :=
  ∃ d, s.buffer.get? f = some d ∧ s.config.isSupported d.language = true ∧
    (s.config.maxDocumentChars < d.length ∨
      (∃ c, s.snapshot? f = some c ∧ d.version < c.version) ∨ s.fault = some .outline)

/-- Such a pass has something to say at most. -/
theorem Skips.pass_eq (h : s.Skips f) :
    (∃ said, s.pass f = ({ s with diagnostics := said }, none)) ∧ s.passCalls f = [] := by
  obtain ⟨d, hd, hlanguage, hwhy⟩ := h
  have hopen : (s.buffer.get? f).filter (fun d => s.config.isSupported d.language) = some d :=
    Option.filter_eq_some_iff.mpr ⟨hd, hlanguage⟩
  have hfails : s.fault = some .outline → s.install d = (s, none) ∧ s.installCalls d = [] :=
    fun hf => ⟨if_pos hf, if_pos hf⟩
  unfold pass passCalls
  rw [hopen]
  dsimp only
  split_ifs with hlong
  · exact ⟨⟨_, rfl⟩, rfl⟩
  · cases hc : s.snapshot? f with
    | none =>
      obtain ⟨hinstall, hcalls⟩ := hfails (by simpa [hlong, hc] using hwhy)
      exact ⟨⟨s.diagnostics, hinstall⟩, hcalls⟩
    | some c =>
      dsimp only
      split_ifs with hold
      · exact ⟨⟨_, rfl⟩, rfl⟩
      · obtain ⟨hinstall, hcalls⟩ := hfails (by simpa [hlong, hc, hold] using hwhy)
        exact ⟨⟨s.diagnostics, hinstall⟩, hcalls⟩

/-! ### What a pass announces -/

/-- A call made while something is done for one item after the other is made for one of them. -/
theorem exists_of_mem_callsOver {α : Type} {step : Session → α → Session}
    {calls : Session → α → List Call} {P : Session → Prop} (hstep : ∀ s a, P s → P (step s a))
    {items : List α} (hs : P s) (hcall : call ∈ callsOver step calls items s) :
    ∃ a ∈ items, ∃ t, P t ∧ call ∈ calls t a := by
  induction items generalizing s with
  | nil => cases hcall
  | cons a items ih =>
    rcases List.mem_append.mp hcall with hcall | hcall
    · exact ⟨a, List.mem_cons_self .., s, hs, hcall⟩
    · obtain ⟨b, hb, hrest⟩ := ih (hstep s a hs) hcall
      exact ⟨b, List.mem_cons_of_mem a hb, hrest⟩

/-- A call made while something is delivered is about it, or it comes out of another one. -/
theorem mem_deliverCalls {n : Notice} {receive : Session → Subscriber → Session}
    {inner : Session → Subscriber → List Call} {P : Session → Prop}
    (hreceive : ∀ s who, P s → P (receive s who)) (hs : P s)
    (h : call ∈ s.deliverCalls n receive inner) :
    call.notice = n ∨ ∃ who t, P t ∧ call ∈ inner t who := by
  obtain ⟨who, -, t, ht, hcall⟩ := exists_of_mem_callsOver hreceive hs h
  rcases List.mem_cons.mp hcall with rfl | hcall
  · exact Or.inl rfl
  · exact Or.inr ⟨who, t, ht, hcall⟩

theorem mem_announceCalls {n : Notice} (h : call ∈ s.announceCalls n) : call.notice = n := by
  rcases mem_deliverCalls (P := fun _ => True) (fun _ _ _ => trivial) trivial h with hn | hnone
  · exact hn
  · obtain ⟨who, t, -, hnone⟩ := hnone
    cases hnone

/-- What can be said in a pass over the file `f`: that there is a snapshot, and what graph and
history make of it unless they are made to fail. -/
def MaySay (s : Session) (f : String) (n : Notice) : Prop :=
  match n.topic with
  | .snapshotUpdated => True
  | .graphUpdated => s.fault ≠ some .edges
  | .historyRecorded => ¬ (s.fault = some .changes ∧ s.history.hasBaseline f = true)
  | .documentAdded | .documentRemoved | .contentChanged => False

/-- The fault stays what it is while subscribers are told of a snapshot, and a file that has a
baseline keeps one. -/
structure Failing (f : String) (fault : Option Fault) (compared : Bool) (s : Session) : Prop where
  fault : s.fault = fault
  compared : compared = true → s.history.hasBaseline f = true

theorem hasBaseline_historyAfter (h : s.history.hasBaseline f = true) :
    (s.historyAfter f c).hasBaseline f = true := by
  unfold historyAfter
  split_ifs
  · exact h
  · rw [History.hasBaseline, History.ofFile_recording, if_pos rfl]
    rfl

theorem Failing.receiveSnapshot {fault : Option Fault} {compared : Bool}
    (h : s.Failing f fault compared) (who : Subscriber) :
    (receiveSnapshot f s who).Failing f fault compared := by
  cases who with
  | indexer | listener => exact ⟨h.fault, h.compared⟩
  | graph =>
    cases hc : s.snapshot? f with
    | none =>
      rw [Session.receiveSnapshot, rebuildEdges, hc]
      exact h
    | some c =>
      obtain ⟨heard, hgraph⟩ := rebuildEdges_eq hc
      rw [Session.receiveSnapshot, hgraph]
      exact ⟨h.fault, h.compared⟩
  | history =>
    cases hc : s.snapshot? f with
    | none =>
      rw [Session.receiveSnapshot, recordChanges, hc]
      exact h
    | some c =>
      obtain ⟨heard, hhistory⟩ := recordChanges_eq hc
      rw [Session.receiveSnapshot, hhistory]
      exact ⟨h.fault, fun hb => hasBaseline_historyAfter (h.compared hb)⟩

theorem mem_rebuildEdgesCalls (h : call ∈ s.rebuildEdgesCalls f) :
    call.notice = .graphUpdated f ∧ s.fault ≠ some .edges := by
  unfold rebuildEdgesCalls at h
  cases hc : s.snapshot? f with
  | none => simp [hc] at h
  | some c =>
    rw [hc] at h
    dsimp only at h
    split_ifs at h with hfault
    · cases h
    · exact ⟨mem_announceCalls h, hfault⟩

theorem mem_recordChangesCalls (h : call ∈ s.recordChangesCalls f) :
    (∃ e, call.notice = .historyRecorded e) ∧
      ¬ (s.fault = some .changes ∧ s.history.hasBaseline f = true) := by
  unfold recordChangesCalls at h
  cases hc : s.snapshot? f with
  | none => simp [hc] at h
  | some c =>
    rw [hc] at h
    simp only [History.hasBaseline, History.ofFile_know] at h
    split_ifs at h with hfails
    · cases h
    · obtain ⟨change, -, t, -, hcall⟩ := exists_of_mem_callsOver (P := fun _ => True)
        (fun _ _ _ => trivial) trivial h
      exact ⟨⟨_, mem_announceCalls hcall⟩,
        fun hf => hfails (Bool.and_eq_true_iff.mpr ⟨decide_eq_true hf.1, hf.2⟩)⟩

theorem mem_announceSnapshotCalls (h : call ∈ s.announceSnapshotCalls f) :
    s.MaySay f call.notice := by
  rcases mem_deliverCalls (P := Failing f s.fault (s.history.hasBaseline f))
    (fun _ who ht => ht.receiveSnapshot who) ⟨rfl, id⟩ h with hn | ⟨who, t, ht, hinner⟩
  · rw [hn]
    trivial
  · cases who with
    | indexer | listener => cases hinner
    | graph =>
      obtain ⟨hn, hfault⟩ := mem_rebuildEdgesCalls hinner
      rw [hn]
      exact fun hf => hfault (ht.fault.trans hf)
    | history =>
      obtain ⟨⟨e, hn⟩, hfails⟩ := mem_recordChangesCalls hinner
      rw [hn]
      exact fun hf => hfails ⟨ht.fault.trans hf.1, ht.compared hf.2⟩

/-- **A pass announces its snapshot, and what graph and history make of it.** -/
theorem Passes.maySay (h : Passes f forced s cs t)
    (hfiled : ∀ d, s.buffer.get? f = some d → d.fileId = f) (hcall : call ∈ cs) :
    s.MaySay f call.notice := by
  cases h with
  | idle | dropped | stranded => cases hcall
  | installed hd hfault h =>
    obtain rfl := hfiled _ hd.document
    -- the session has another index by then, on which it does not depend what can be said
    have hsay := mem_announceSnapshotCalls hcall
    exact hsay

/-! ### Forced and scheduled passes -/

/-- A pass over the file `f`, forced or scheduled, with the calls that it makes. -/
inductive PassOver (f : String) : Bool → Session → List Call → Session → Prop
  | forced (s : Session) : PassOver f true s (s.calls (.recompute f)) (s.recompute f).1
  | flushed {s : Session} (h : s.timers.isPending f = true) :
      PassOver f false s (s.flushFileCalls f) (s.flushFile f)
  | due {s : Session} {timer : Timer} (h : timer ∈ s.timers.waiting) (hkey : timer.key = f) :
      PassOver f false s ({ s with timers := s.timers.goOff timer }.scheduledPassCalls f)
        (s.wake timer)
  | atOnce {s : Session} (h : s.clocked = false) :
      PassOver f false s (s.scheduleCalls f) (s.schedule f)

/-- How a pass goes on once the timer of the file is taken out. -/
inductive Begun (f : String) (s : Session) : Bool → List Call → Session → Prop
  /-- A scheduled pass finds nothing to do. -/
  | current (timers : Timers) (hwaiting : timers.waiting = s.timers.waiting.filter (·.key ≠ f))
      {d : Document} {c : Snapshot} (hd : s.buffer.get? f = some d) (hc : s.snapshot? f = some c)
      (hversion : d.version = c.version) (said : List Diagnostic) :
      Begun f s false [] { s with timers := timers, diagnostics := said }
  | passed (timers : Timers) (hwaiting : timers.waiting = s.timers.waiting.filter (·.key ≠ f))
      (forced : Bool) :
      Begun f s forced ({ s with timers := timers }.passCalls f)
        ({ s with timers := timers }.pass f).1

theorem begun_scheduledPass (timers : Timers)
    (hwaiting : timers.waiting = s.timers.waiting.filter (·.key ≠ f)) :
    Begun f s false ({ s with timers := timers }.scheduledPassCalls f)
      ({ s with timers := timers }.scheduledPass f) := by
  rcases scheduledPass_cases { s with timers := timers } f with
    ⟨hcalls, ⟨d, c, hd, hc, hversion⟩, said, hsaid⟩ | ⟨hcalls, hpass, -⟩
  · rw [hcalls, hsaid]
    exact .current timers hwaiting hd hc hversion said
  · rw [hcalls, hpass]
    exact .passed timers hwaiting false

/-- A scheduled pass, however it comes about, is made once the timer of the file is taken out. -/
theorem PassOver.scheduled (h : PassOver f false s cs t) :
    ∃ timers : Timers, timers.waiting = s.timers.waiting.filter (·.key ≠ f) ∧
      cs = { s with timers := timers }.scheduledPassCalls f ∧
      t = { s with timers := timers }.scheduledPass f := by
  cases h with
  | flushed h =>
    rw [flushFileCalls, flushFile, if_pos h, if_pos h]
    exact ⟨s.timers.cancel f, rfl, rfl, rfl⟩
  | @due _ timer h hkey =>
    subst hkey
    exact ⟨s.timers.goOff timer, rfl, rfl, rfl⟩
  | atOnce h =>
    have hclock : ¬ s.clocked = true := by simp [h]
    rw [scheduleCalls, schedule, if_neg hclock, if_neg hclock]
    exact ⟨s.timers.cancel f, rfl, rfl, rfl⟩

/-- **Every pass takes the timer of its file out first.** -/
theorem PassOver.begun (h : PassOver f forced s cs t) : Begun f s forced cs t := by
  cases forced with
  | true =>
    cases h
    exact .passed (s.timers.cancel f) rfl true
  | false =>
    obtain ⟨timers, hwaiting, rfl, rfl⟩ := h.scheduled
    exact begun_scheduledPass timers hwaiting

end Session
end SymbolAtlas
