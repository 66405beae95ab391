import SymbolAtlas.Proofs.Derived
import SymbolAtlas.Proofs.Interference
import SymbolAtlas.Proofs.Passing
import SymbolAtlas.Proofs.Revision

/-!
# Passes that fail

A pass has four things to compute: an outline, the ids of its declarations, the edges of the graph
and the changes since the baseline.  A pass that makes no snapshot (`Skips`: the document is too
long or older than the snapshot, or its outline fails) leaves the session as it was, but for the
timer of its file (`PassOver.unmoved`).  Once there is a snapshot it stays, and the edges and the
changes follow it or fail each for itself (`PassOver.follows`).

What fails falls behind and no further: `FileState.Stuck` says that it stays as it was until the
fault is cleared, whatever else is done short of closing the file, and the first pass after that
brings all of it up to date (`PassOver.caughtUp`).

Main statement: `Fresh.failed_passes`, for all passes at every moment of a session.  Parts that were
disposed of follow no snapshot (`disposed_parts_stay`).
-/

namespace SymbolAtlas

/-! ### Room for retired ids -/

namespace Session

variable {s t : Session}

/-- Every lineage has the capacity of the settings, as long as that is one. -/
def Roomy (s : Session) : Prop :=
  0 ≤ s.config.maxRetiredIds →
    ∀ f l, s.index.lineages.get? f = some l → l.capacity = s.config.maxRetiredIds

theorem Roomy.assign (hs : s.Roomy) (hroom : 0 ≤ s.config.maxRetiredIds) (d : Document) :
    ∃ ids l, s.assignment d = (.ok ids, l) ∧ l.capacity = s.config.maxRetiredIds ∧
      (Outline.ofText d.content).declarations.length = ids.length := by
  have hcapacity : (s.index.lineage d.fileId s.config.maxRetiredIds).capacity =
      s.config.maxRetiredIds := by
    unfold Index.lineage
    cases hl : s.index.lineages.get? d.fileId with
    | none => rfl
    | some l => exact hs hroom d.fileId l hl
  obtain ⟨ids, l, ha, hassigned⟩ :=
    Lineage.assign_outline (hcapacity ▸ hroom) d.content (s.snapshot? d.fileId)
  exact ⟨ids, l, ha, hassigned.capacity.trans hcapacity, hassigned.length.symm⟩

/-- Every move leaves room. -/
theorem Roomy.moves (hs : s.Roomy) (hm : Moves s t) : t.Roomy := by
  intro hroom f l hl
  rw [hm.config] at hroom ⊢
  cases hm with
  | track g => exact hs hroom f l (by simpa only [Index.lineages_track] using hl)
  | forget g =>
    simp only [Index.forget, Entries.get?_erase] at hl
    split_ifs at hl
    exact hs hroom f l hl
  | @strand g d e l' hd ha =>
    obtain ⟨ids, l'', hok, -⟩ := hs.assign hroom d
    rw [hok] at ha
    cases ha
  | @install g d ids l' hd ha =>
    obtain ⟨ids', l'', hok, hcapacity, -⟩ := hs.assign hroom d
    rw [hok] at ha
    obtain ⟨-, rfl⟩ := Prod.mk.inj ha
    simp only [Entries.get?_put] at hl
    split_ifs at hl
    · rwa [← Option.some.inj hl]
    · exact hs hroom f l hl
  | _ => exact hs hroom f l hl

theorem Roomy.reaches (hs : s.Roomy) (hr : Reaches s t) : t.Roomy := by
  induction hr with
  | refl => exact hs
  | tail _ hm ih => exact ih.moves hm

theorem roomy_of_empty (h : s.index = .empty) : s.Roomy := by
  intro _ f l hl
  simp [h, Index.empty] at hl

/-- So does every operation. -/
theorem Roomy.step (hs : s.Roomy) (op : Op) : (s.step op).1.Roomy := by
  cases op with
  | dispose part =>
    cases part with
    | graph | history => exact hs
    | indexer | session => exact roomy_of_empty rfl
  | _ => exact hs.reaches (follows_step s rfl).reaches

/-- A new session has room. -/
theorem Fresh.roomy {config : Config} (h : Fresh config s) : s.Roomy := by
  induction h with
  | new clocked documents =>
    have hblank : (blank config clocked (.holding documents) [.indexer, .graph, .history]).Roomy :=
      roomy_of_empty rfl
    exact (hblank.step .start).moves (.note _ _)
  | listen _ ih => exact ih

/-- What holds at any moment, between two operations or during one. -/
theorem Fresh.anytime {config : Config} {s₀ : Session} (h₀ : Fresh config s₀) (ops : List Op)
    (hs : Reaches (s₀.run ops) s) : s.Tidy ∧ s.Roomy := by
  have hrun : (s₀.run ops).Tidy ∧ (s₀.run ops).Roomy := by
    have hfresh : s₀.Tidy ∧ s₀.Roomy := ⟨h₀.tidy_ordered.1, h₀.roomy⟩
    clear hs h₀
    induction ops generalizing s₀ with
    | nil => exact hfresh
    | cons op ops ih => exact ih ⟨hfresh.1.step op, hfresh.2.step op⟩
  exact ⟨hrun.1.reaches hs, hrun.2.reaches hs⟩

/-! ### Passes that make no snapshot -/

/-- From `s` to `t` nothing changes but that the file `f` waits no more, and what is said in
diagnostics. -/
structure Unmoved (f : String) (s t : Session) : Prop where
  config : t.config = s.config
  clocked : t.clocked = s.clocked
  buffer : t.buffer = s.buffer
  subscribers : t.subscribers = s.subscribers
  index : t.index = s.index
  graph : t.graph = s.graph
  history : t.history = s.history
  fault : t.fault = s.fault
  heard : t.heard = s.heard
  timers : t.timers.waiting = s.timers.waiting.filter (·.key ≠ f)

/-- **A pass that makes no snapshot changes nothing**, and says nothing. -/
theorem PassOver.unmoved {f : String} {forced : Bool} {cs : List Call}
    (h : PassOver f forced s cs t) (hskips : s.Skips f) : Unmoved f s t ∧ cs = [] := by
  cases h.begun with
  | current timers hwaiting hd hc hversion said =>
    exact ⟨⟨rfl, rfl, rfl, rfl, rfl, rfl, rfl, rfl, rfl, hwaiting⟩, rfl⟩
  | passed timers hwaiting =>
    have hskips' : { s with timers := timers }.Skips f := hskips
    obtain ⟨⟨said, hpass⟩, hcalls⟩ := hskips'.pass_eq
    rw [hpass]
    exact ⟨⟨rfl, rfl, rfl, rfl, rfl, rfl, rfl, rfl, rfl, hwaiting⟩, hcalls⟩

/-! ### Passes that make one -/

/-- What becomes of the graph in a pass over `f` with the calls `cs` that makes the snapshot `c`. -/
structure GraphFollows (f : String) (c : Snapshot) (s : Session) (cs : List Call) (t : Session) :
    Prop where
  /-- If edges fail all of them stay, in every index, and nothing is said. -/
  failed : s.fault = some .edges →
    t.graph = s.graph ∧ ∀ call ∈ cs, call.notice.topic ≠ .graphUpdated
  /-- Otherwise the file has the edges of the snapshot, and every index shows them. -/
  made : s.fault ≠ some .edges → .graph ∈ s.subscribers →
    t.graph.edgesOf f = c.callEdges ∧ (∀ g, g ≠ f → t.graph.edgesOf g = s.graph.edgesOf g) ∧
      t.graph.Exact

/-- What becomes of the history. -/
structure HistoryFollows (f : String) (c : Snapshot) (s : Session) (cs : List Call) (t : Session) :
    Prop where
  /-- If the comparison with the baseline fails, events, baselines and the count stay, and nothing
  is said. -/
  failed : s.fault = some .changes → s.history.hasBaseline f = true →
    t.history = s.history ∧ ∀ call ∈ cs, call.notice.topic ≠ .historyRecorded
  /-- Otherwise the changes since the baseline are recorded, and the snapshot is the next one. -/
  made : ¬ (s.fault = some .changes ∧ s.history.hasBaseline f = true) →
    .history ∈ s.subscribers →
    t.history.ofFile f = ⟨(s.history.ofFile f).events ++ History.eventsFrom s.history.recorded f
        c.version (s.history.changesWith f c), some c⟩ ∧
      ∀ g, g ≠ f → t.history.ofFile g = s.history.ofFile g

/-- **A pass that makes a snapshot, whatever of the rest fails.** -/
theorem PassOver.follows {f : String} {forced : Bool} {cs : List Call}
    (h : PassOver f forced s cs t) (hs : s.Tidy) (hroomy : s.Roomy)
    (hroom : 0 ≤ s.config.maxRetiredIds) {d : Document} (hd : s.Passable f forced d)
    (hfault : s.fault ≠ some .outline) :
    ∃ c, t.snapshot? f = some c ∧ c.Reflects d ∧ GraphFollows f c s cs t ∧
      HistoryFollows f c s cs t := by
  cases h.begun with
  | current timers hwaiting hd' hc hversion said =>
    -- a scheduled pass is of no use only if the versions agree
    obtain rfl := Option.some.inj (hd.document.symm.trans hd')
    rcases hd.version _ hc with hlt | ⟨hforced, -⟩
    · omega
    · cases hforced
  | passed timers hwaiting =>
    obtain rfl := hs.filed f d hd.document
    have hd' : { s with timers := timers }.Passable d.fileId forced d :=
      ⟨hd.document, hd.language, hd.length, hd.version⟩
    obtain ⟨ids, l, ha, -, hlength⟩ := hroomy.assign hroom d
    obtain ⟨heard, hinstall⟩ :=
      install_eq (s := { s with timers := timers }) hs.subscribers hfault ha
    have hidentifies : { s with timers := timers }.Identifies :=
      ⟨hs.identifies.lineages, hs.identifies.snapshots, hs.identifies.graph⟩
    have hpass : Passes d.fileId true { s with timers := timers } _ _ := passes_pass (by simp)
    have hexact := (hidentifies.reaches hpass.unfolds.reaches).graph.exact
    have hsaid : ∀ call ∈ { s with timers := timers }.passCalls d.fileId,
        s.MaySay d.fileId call.notice := fun call hcall =>
      hpass.maySay (hs.filed d.fileId) hcall
    rw [hd'.pass_eq, hinstall] at hexact ⊢
    refine ⟨.ofOutline d (Outline.ofText d.content) ids, ?_,
      Snapshot.reflects_ofOutline d hlength.symm, ⟨fun hf => ⟨?_, fun call hcall htopic => ?_⟩,
        fun hf hin => ?_⟩, ⟨fun hf hb => ⟨?_, fun call hcall htopic => ?_⟩, fun hf hin => ?_⟩⟩
    · simp [snapshot?, Entries.get?_put]
    · simp [graphAfter, hf]
    · have hsay := hsaid call hcall
      rw [MaySay, htopic] at hsay
      exact hsay hf
    · refine ⟨?_, fun g hg => ?_, hexact⟩
      · simp [hin, graphAfter, hf, CallGraph.edgesOf, CallGraph.files_replace, Entries.get?_put]
      · simp [hin, graphAfter, hf, CallGraph.edgesOf, CallGraph.files_replace, Entries.get?_put, hg]
    · simp [historyAfter, hf, hb]
    · have hsay := hsaid call hcall
      rw [MaySay, htopic] at hsay
      exact hsay ⟨hf, hb⟩
    · have hrecords : ¬ (s.fault = some .changes && s.history.hasBaseline d.fileId) = true := by
        simpa using hf
      refine ⟨?_, fun g hg => ?_⟩
      · simp only [if_pos hin, historyAfter, if_neg hrecords, History.ofFile_recording, if_pos]
      · simp only [if_pos hin, historyAfter, if_neg hrecords, History.ofFile_recording, if_neg hg]

end Session

/-! ### As long as something fails -/

/-- Whether an operation neither closes the file `f`, nor disposes of anything, nor sets what
fails. -/
def Session.Op.retains (f : String) : Op → Bool
  | .close g | .publish (.documentRemoved g) => g ≠ f
  | .setFault _ | .dispose _ => false
  | _ => true

namespace FileState

/-- From `x` to `y` the same fails, and what fails has stayed as it was. -/
structure Stuck (x y : FileState) : Prop where
  fault : y.fault = x.fault
  edges : x.fault = some .edges → y.edges = x.edges
  changes : x.fault = some .changes → x.baseline.isSome = true →
    y.baseline = x.baseline ∧ y.events = x.events

variable {f : String} {op : Session.Op} {x y z : FileState}

theorem Stuck.refl (x : FileState) : Stuck x x := ⟨rfl, fun _ => rfl, fun _ _ => ⟨rfl, rfl⟩⟩

theorem Stuck.trans (h : Stuck x y) (h' : Stuck y z) : Stuck x z := by
  refine ⟨h'.fault.trans h.fault, fun hf => ?_, fun hf hb => ?_⟩
  · exact (h'.edges (h.fault.trans hf)).trans (h.edges hf)
  · obtain ⟨hbaseline, hevents⟩ := h.changes hf hb
    obtain ⟨hbaseline', hevents'⟩ := h'.changes (h.fault.trans hf) (hbaseline ▸ hb)
    exact ⟨hbaseline'.trans hbaseline, hevents'.trans hevents⟩

/-- A pass that makes no snapshot changes nothing that was made. -/
theorem Passes.stuck (h : Passes x z) : Stuck x z := by
  cases h with
  | untracked | tooLong | stale | failed => exact .refl x
  | dropped | stranded => exact ⟨rfl, fun _ => rfl, fun _ _ => ⟨rfl, rfl⟩⟩
  | installed hd hlong hold hf ha =>
    refine ⟨rfl, fun hf => ?_, fun hf hb => ⟨?_, ?_⟩⟩
    · simp [FileState.installed, hf]
    · simp [FileState.installed, hf, hb]
    · simp [FileState.installed, hf, hb]

/-- Nor does an operation without one. -/
theorem Processed.stuck (h : Processed f op x z) (hop : op.ordinary = true) : Stuck x z := by
  obtain ⟨y, hy, hz⟩ := h
  have hprepared : Stuck x y :=
    ⟨hy.fault hop, fun _ => hy.edges, fun _ _ => ⟨hy.baseline, hy.events⟩⟩
  rcases hz with rfl | hz
  · exact hprepared
  · exact hprepared.trans hz.stuck

theorem stuck_recorded (x : FileState) : Stuck x x.rebuildEdges.recordChanges := by
  have hedges : Stuck x x.rebuildEdges := by
    unfold rebuildEdges
    cases x.snapshot with
    | none => exact .refl x
    | some c =>
      dsimp only
      split_ifs with hf
      · exact .refl x
      · exact ⟨rfl, fun h => absurd h hf, fun _ _ => ⟨rfl, rfl⟩⟩
  have hchanges : ∀ y : FileState, Stuck y y.recordChanges := by
    intro y
    unfold recordChanges
    cases y.snapshot with
    | none => exact .refl y
    | some c =>
      dsimp only
      split_ifs with hf
      · exact .refl y
      · refine ⟨rfl, fun _ => rfl, fun h hb => absurd ?_ hf⟩
        rw [h, hb]
        rfl
  exact hedges.trans (hchanges _)

/-- **What fails stays as it was**, whatever is done short of closing the file. -/
theorem stuck_step (hop : op.retains f = true) (now : Int) (x : FileState) :
    Stuck x (x.step f now op) := by
  have hdocument : ∀ d, Stuck x { x with document := d } :=
    fun _ => ⟨rfl, fun _ => rfl, fun _ _ => ⟨rfl, rfl⟩⟩
  have hregular : op.ordinary = true → op ≠ .close f → Stuck x (x.step f now op) :=
    fun hord hclose =>
      (step_processed (Session.Op.regular_of_ordinary hord) hclose now x).stuck hord
  cases op with
  | plant d =>
    unfold step
    dsimp only
    split_ifs
    · exact hdocument _
    · exact .refl x
  | uproot g =>
    unfold step
    dsimp only
    split_ifs
    · exact hdocument _
    · exact .refl x
  | publish n =>
    have hprepared := Prepares.refl f .flush x
    unfold step receive
    cases n with
    | documentAdded g =>
      dsimp only
      split_ifs
      · exact (hprepared.observe now).stuck rfl
      · exact .refl x
    | contentChanged g =>
      dsimp only
      split_ifs
      · exact (hprepared.processed (mayPass_schedule x now)).stuck rfl
      · exact (hprepared.observe now).stuck rfl
      · exact .refl x
    | documentRemoved g =>
      have hg : g ≠ f := by simpa [Session.Op.retains] using hop
      dsimp only
      rw [if_neg hg]
      exact .refl x
    | snapshotUpdated g =>
      dsimp only
      split_ifs
      · exact stuck_recorded x
      · exact .refl x
    | graphUpdated g | historyRecorded e => exact .refl x
  | close g =>
    have hg : g ≠ f := by simpa [Session.Op.retains] using hop
    exact hregular rfl fun h => hg (Session.Op.close.inj h)
  | setFault fault | dispose part => cases hop
  | _ => exact hregular rfl (by simp)

end FileState

namespace Session

variable {f : String} {s : Session}

theorem Op.disposes_of_retains {op : Op} (h : op.retains f = true) : op.disposes = false := by
  cases op with
  | dispose part => cases h
  | _ => rfl

/-- Nor does a run. -/
theorem stuck_run (hs : s.Regular) {ops : List Op} (hops : ∀ op ∈ ops, op.retains f = true) :
    FileState.Stuck (s.file f) ((s.run ops).file f) :=
  file_run (P := FileState.Stuck (s.file f)) (fun _ hop => Op.disposes_of_retains hop)
    (fun _ now _ hop h => h.trans (FileState.stuck_step hop now _)) hs (.refl _) hops

/-! ### Once nothing fails -/

/-- From `s` to `t` a pass over `f` made the snapshot `c` of the document `d`, the graph shows it,
and the history records what changed since the baseline. -/
structure CaughtUp (f : String) (d : Document) (c : Snapshot) (s t : Session) : Prop where
  snapshot : t.snapshot? f = some c
  reflects : c.Reflects d
  edges : t.graph.edgesOf f = c.callEdges
  exact : t.graph.Exact
  baseline : (t.history.ofFile f).baseline = some c
  recorded : t.recordedOf f =
    s.recordedOf f ++ (s.history.changesWith f c).map fun change => (c.version, change)

/-- The three parts are registered. -/
theorem Regular.mem_subscribers (hs : s.Regular) {part : Subscriber}
    (h : part ∈ [.indexer, .graph, .history]) : part ∈ s.subscribers :=
  (List.mem_filter.mp (hs.wired ▸ h)).1

/-- A pass that does not fail catches up with the document. -/
theorem PassOver.caughtUp {forced : Bool} {t : Session} {cs : List Call}
    (h : PassOver f forced s cs t) (hs : s.Regular) (htidy : s.Tidy) (hroomy : s.Roomy)
    (hroom : 0 ≤ s.config.maxRetiredIds) {d : Document} (hd : s.Passable f forced d)
    (hfault : s.fault = none) : ∃ c, CaughtUp f d c s t := by
  obtain ⟨c, hc, hreflects, hgraph, hhistory⟩ :=
    h.follows htidy hroomy hroom hd (by simp [hfault])
  obtain ⟨hedges, -, hexact⟩ := hgraph.made (by simp [hfault]) (hs.mem_subscribers (by decide))
  obtain ⟨hfile, -⟩ := hhistory.made (by simp [hfault]) (hs.mem_subscribers (by decide))
  refine ⟨c, hc, hreflects, hedges, hexact, by rw [hfile], ?_⟩
  simp only [recordedOf, History.eventsOf, hfile, List.map_append, History.map_eventsFrom]

/-- **Failed passes change nothing, and the first that succeeds catches up.** -/
theorem Fresh.failed_passes {config : Config} {s₀ : Session} (h₀ : Fresh config s₀)
    (ops : List Op) (f : String) :
    (∀ s forced cs t, Reaches (s₀.run ops) s → PassOver f forced s cs t →
      (s.Skips f → Unmoved f s t ∧ cs = []) ∧
      ∀ d, s.Passable f forced d → s.fault ≠ some .outline → 0 ≤ s.config.maxRetiredIds →
        ∃ c, t.snapshot? f = some c ∧ c.Reflects d ∧ GraphFollows f c s cs t ∧
          HistoryFollows f c s cs t) ∧
    ((∀ op ∈ ops, op.disposes = false) → 0 ≤ config.maxRetiredIds →
      ∀ (fault : Fault) (missed quiet : List Op), (∀ op ∈ missed, op.retains f = true) →
        (∀ op ∈ quiet, op.retains f = true) →
        let s₁ := s₀.run ops
        let s₂ := s₁.run (.setFault (some fault) :: missed)
        let s₃ := s₂.run (.setFault none :: quiet)
        (fault = .edges → s₂.graph.files.get? f = s₁.graph.files.get? f) ∧
        (fault = .changes → s₁.history.hasBaseline f = true →
          (s₂.history.ofFile f).baseline = (s₁.history.ofFile f).baseline ∧
            s₂.recordedOf f = s₁.recordedOf f) ∧
        ∀ forced d cs t, PassOver f forced s₃ cs t → s₃.Passable f forced d →
          ∃ c, CaughtUp f d c s₃ t ∧
            ∀ b, fault = .changes → (s₁.history.ofFile f).baseline = some b →
              s₃.history.ofFile f = s₂.history.ofFile f →
              t.recordedOf f =
                s₁.recordedOf f ++ (b.changesTo c).map fun change => (c.version, change)) := by
  refine ⟨fun s forced cs t hs h => ⟨h.unmoved, fun d hd hfault hroom => ?_⟩, ?_⟩
  · obtain ⟨htidy, hroomy⟩ := h₀.anytime ops hs
    exact h.follows htidy hroomy hroom hd hfault
  intro hops hroom fault missed quiet hmissed hquiet s₁ s₂ s₃
  have hset : (s₁.step (.setFault (some fault))).1.Regular := (h₀.regular.run hops).step rfl
  have hs₂ : s₂.Regular := hset.run fun op hop => Op.disposes_of_retains (hmissed op hop)
  have hcleared : (s₂.step (.setFault none)).1.Regular := hs₂.step rfl
  have hmissed' := stuck_run hset hmissed
  have hkept : fault = .changes → s₁.history.hasBaseline f = true →
      (s₂.history.ofFile f).baseline = (s₁.history.ofFile f).baseline ∧
        s₂.recordedOf f = s₁.recordedOf f :=
    fun hf hb => hmissed'.changes (congrArg some hf) hb
  refine ⟨fun hf => hmissed'.edges (congrArg some hf), hkept, fun forced d cs t h hd => ?_⟩
  have hrun : s₃ = s₀.run (ops ++ .setFault (some fault) :: missed ++ .setFault none :: quiet) := by
    rw [run_append, run_append]
  have hall : ∀ op ∈ ops ++ .setFault (some fault) :: missed ++ .setFault none :: quiet,
      op.disposes = false := by
    simp only [List.forall_mem_append, List.forall_mem_cons]
    exact ⟨⟨hops, rfl, fun op hop => Op.disposes_of_retains (hmissed op hop)⟩, rfl,
      fun op hop => Op.disposes_of_retains (hquiet op hop)⟩
  have hs₃ : s₃.Regular := hrun ▸ h₀.regular.run hall
  have hconfig : s₃.config = config := by rw [hrun, config_run s₀ hall, h₀.config]
  have hanytime : s₃.Tidy ∧ s₃.Roomy := hrun ▸ h₀.anytime _ .refl
  obtain ⟨c, hc⟩ := h.caughtUp hs₃ hanytime.1 hanytime.2 (hconfig ▸ hroom) hd
    (stuck_run hcleared hquiet).fault
  refine ⟨c, hc, fun b hf hb hsame => ?_⟩
  obtain ⟨hbaseline, hrecorded⟩ := hkept hf (by rw [History.hasBaseline, hb]; rfl)
  have hchanges : s₃.history.changesWith f c = b.changesTo c := by
    rw [History.changesWith, hsame, hbaseline, hb]
  have hrecorded₃ : s₃.recordedOf f = s₁.recordedOf f := by
    rw [← hrecorded, recordedOf, History.eventsOf, hsame, recordedOf, History.eventsOf]
  rw [hc.recorded, hchanges, hrecorded₃]

/-- A function that calls another one. -/
def calling (callee : String) : Text :=
  ("function a() \x7b " ++ callee ++ "() \x7d\nfunction " ++ callee ++ "() {}").toList

/-- A pass whose outline fails does nothing, one whose edges fail leaves the graph alone, and a
renaming that could not be compared is recorded by the next pass. -/
theorem renaming_recorded_late :
    let s := new .default false (.holding [⟨"a.ts", calling "b", "typescript", 1⟩])
    let d : Document := ⟨"a.ts", calling "c", "typescript", 2⟩
    let unread := s.run [.setFault (some .outline)]
    let unlinked := s.run [.plant d, .setFault (some .edges)]
    let compared := (s.run [.flush]).run [.setFault (some .changes), .update "a.ts" (calling "c")]
    let cleared := compared.run [.setFault none]
    let t := (cleared.recompute "a.ts").1
    Unmoved "a.ts" unread (unread.recompute "a.ts").1 ∧
      (unlinked.recompute "a.ts").1.graph = unlinked.graph ∧
      compared.recordedOf "a.ts" = (s.run [.flush]).recordedOf "a.ts" ∧
      (∃ c, CaughtUp "a.ts" d c cleared t) ∧
      t.recordedOf "a.ts" = [(2, .renamed "a.ts::b@2" "b" "c")] := by
  intro s d unread unlinked compared cleared t
  have hs : Fresh .default s := .new false [⟨"a.ts", calling "b", "typescript", 1⟩]
  have hskips : unread.Skips "a.ts" :=
    ⟨⟨"a.ts", calling "b", "typescript", 1⟩, by decide +kernel, by decide +kernel,
      Or.inr (Or.inr (by decide +kernel))⟩
  have hunlinked : unlinked.Passable "a.ts" true d := by decide +kernel
  have hcleared : cleared.Passable "a.ts" true d := by decide +kernel
  obtain ⟨hpasses, -⟩ := hs.failed_passes [.setFault (some .outline)] "a.ts"
  obtain ⟨hunmoved, -⟩ := (hpasses unread true _ _ .refl (.forced unread)).1 hskips
  obtain ⟨hlinks, -⟩ := hs.failed_passes [.plant d, .setFault (some .edges)] "a.ts"
  obtain ⟨c, -, -, hgraph, -⟩ := (hlinks unlinked true _ _ .refl (.forced unlinked)).2 d hunlinked
    (by decide +kernel) (by decide +kernel)
  obtain ⟨-, hrecovers⟩ := hs.failed_passes [.flush] "a.ts"
  obtain ⟨-, hkept, hcatches⟩ := hrecovers (by decide) (by decide) .changes
    [.update "a.ts" (calling "c")] [] (by decide) (by decide)
  obtain ⟨c', hc', -⟩ := hcatches true d _ _ (.forced cleared) hcleared
  exact ⟨hunmoved, (hgraph.failed (by decide +kernel)).1, (hkept rfl (by decide +kernel)).2,
    ⟨c', hc'⟩, by decide +kernel⟩

/-- A part that was disposed of does not follow the snapshot: the graph has none of the new edges
where the comparison alone fails, and the history keeps its baseline where the edges alone fail. -/
theorem disposed_parts_stay :
    let s := new .default false (.holding [⟨"a.ts", calling "b", "typescript", 1⟩])
    let ungraphed := s.run
      [.dispose .graph, .setFault (some .changes), .update "a.ts" (calling "c")]
    let unrecorded := s.run
      [.dispose .history, .setFault (some .edges), .update "a.ts" (calling "c")]
    ((ungraphed.snapshot? "a.ts").map fun c => (c.version, c.callEdges)) =
        some (2, [⟨"a.ts::a@1", "a.ts::b@2"⟩]) ∧
      ungraphed.graph.edgesOf "a.ts" = [] ∧
      (unrecorded.snapshot? "a.ts").map Snapshot.version = some 2 ∧
      (unrecorded.history.ofFile "a.ts").baseline.map Snapshot.version = some 1 ∧
      unrecorded.recordedOf "a.ts" = [] := by
  decide +kernel

end Session
end SymbolAtlas
