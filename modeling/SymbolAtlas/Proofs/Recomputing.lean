import SymbolAtlas.Proofs.FailedPasses
import SymbolAtlas.Proofs.Faultless

/-!
# Making a snapshot again

A forced pass over a document that has its snapshot already assigns the same ids once more, since
each declaration continues the symbol made of it before (`Lineage.assign_again`).  So the snapshot
that is put in is the one that is there, and neither the lineage nor the edges nor the baseline
change (`Current.recompute_eq`).  All that is left of it is what the listener hears.

`Session.Current` says of a file what this needs, and a forced pass keeps it; the rest is an
induction on the number of passes (`Current.run_recompute`).

Main statement: `Fresh.recompute_idempotent`, for every session in which nothing has failed.  Parts
of it may have been disposed of: a graph that is disposed of says nothing, and an indexer that is
disposed of may show a snapshot of a file that the graph has forgotten.
-/

namespace SymbolAtlas

/-- The snapshot was made of the document as it is. -/
structure Snapshot.BuiltFrom (c : Snapshot) (d : Document) : Prop where
  version : c.version = d.version
  language : c.language = d.language
  source : c.source = d.content

/-! ### Recording a snapshot again -/

namespace History

variable {h : History} {f : String} {c : Snapshot}

theorem changesWith_eq_nil (hb : (h.ofFile f).baseline = some c ∨ (h.ofFile f).baseline = none) :
    h.changesWith f c = [] := by
  rcases hb with hb | hb <;> rw [changesWith, hb]
  exact Snapshot.changesTo_self c

theorem recording_eq (hsame : h.changesWith f c = []) :
    h.recording f c = (h.know f).setBaseline f (some c) := by
  have hknown : (h.know f).changesWith f c = [] := by rwa [changesWith, ofFile_know]
  rw [recording, hknown]
  rfl

/-- The baseline is recorded again without a trace. -/
theorem recording_baseline (hb : (h.ofFile f).baseline = some c) : h.recording f c = h := by
  have hknown : h.hasBaseline f = true := by rw [hasBaseline, hb, Option.isSome_some]
  rw [recording_eq (changesWith_eq_nil (Or.inl hb)), know_of_hasBaseline hknown, setBaseline]
  have hfile : h.files.get? f = some (h.ofFile f) := by
    unfold ofFile at hb ⊢
    cases hget : h.files.get? f with
    | none => simp [hget] at hb
    | some x => rfl
  rw [← hb, Entries.put_of_get? hfile]

theorem recorded_recording (hsame : h.changesWith f c = []) :
    (h.recording f c).recorded = h.recorded := by
  rw [recording_eq hsame]
  exact recorded_know h f

theorem eventsOf_recording (hsame : h.changesWith f c = []) (g : String) :
    (h.recording f c).eventsOf g = h.eventsOf g := by
  rw [eventsOf, ofFile_recording, hsame, eventsOf]
  split_ifs with hg
  · rw [hg, eventsFrom, List.append_nil]
  · rfl

end History

namespace Session

variable {s t : Session} {f : String} {c : Snapshot}

/-! ### Telling of a snapshot again -/

/-- What the listener hears when the snapshot of the file `f` is made again. -/
def remakeNotices (s : Session) (f : String) : List Notice :=
  s.hears ((if .graph ∈ s.subscribers then [.graphUpdated f] else []) ++ [.snapshotUpdated f])

/-- Of graph and history only the graph has something to say. -/
theorem heard_tellSnapshot {whos : List Subscriber} (hwhos : whos.Nodup) (hout : .listener ∉ whos)
    (hc : s.snapshot? f = some c) (hfault : s.fault = none)
    (hsame : .history ∈ whos → s.history.changesWith f c = []) :
    (whos.foldl (receiveSnapshot f) s).heard = s.heard ++
      if .graph ∈ whos then List.replicate (s.subscribers.count .listener) (.graphUpdated f)
      else [] := by
  induction whos generalizing s with
  | nil => simp
  | cons who whos ih =>
    rw [List.nodup_cons] at hwhos
    rw [List.mem_cons, not_or] at hout
    rw [List.foldl_cons]
    cases who with
    | indexer => simpa [receiveSnapshot] using ih hwhos.2 hout.2 hc hfault (by simpa using hsame)
    | listener => exact absurd rfl hout.1
    | graph =>
      have hgraph : receiveSnapshot f s .graph =
          { s with graph := s.graph.replace f c.callEdges }.announce (.graphUpdated f) := by
        rw [receiveSnapshot, rebuildEdges, hc]
        exact if_neg (by simp [hfault])
      rw [hgraph, announce_eq]
      have hrest := ih hwhos.2 hout.2 (s := { s with
        graph := s.graph.replace f c.callEdges
        heard := s.heard ++ List.replicate (s.subscribers.count .listener) (.graphUpdated f) })
        hc hfault (by simpa using hsame)
      simpa [hwhos.1] using hrest
    | history =>
      have hhistory : receiveSnapshot f s .history =
          { s with history := s.history.recording f c } := by
        have hknown : (s.history.know f).changesWith f c = [] := by
          rw [History.changesWith, History.ofFile_know]
          exact hsame (List.mem_cons_self ..)
        rw [History.recording_eq (hsame (List.mem_cons_self ..)), receiveSnapshot, recordChanges,
          hc]
        dsimp only
        rw [if_neg (by simp [hfault]), hknown]
        rfl
      rw [hhistory]
      have hrest := ih hwhos.2 hout.2 (s := { s with history := s.history.recording f c })
        hc hfault fun hin => absurd hin hwhos.1
      simpa using hrest

theorem Faultless.heard_announceSnapshot (hs : s.Faultless) (hc : s.snapshot? f = some c)
    (hsame : .history ∈ s.subscribers → s.history.changesWith f c = []) :
    (s.announceSnapshot f).heard = s.heard ++ s.remakeNotices f := by
  have hwired : s.subscribers.Sublist ([.indexer, .graph, .history] ++ [.listener]) := hs.wired
  obtain ⟨whos, last, hall, hwhos, hlast⟩ := List.sublist_append_iff.mp hwired
  have hout : .listener ∉ whos := fun hin => absurd (hwhos.subset hin) (by decide)
  have hheard := heard_tellSnapshot (hwhos.nodup (by decide)) hout hc hs.fault
    fun hin => hsame (hall ▸ List.mem_append_left last hin)
  rcases List.sublist_singleton.mp hlast with rfl | rfl
  · rw [List.append_nil] at hall
    rw [announceSnapshot_eq_foldl, hall, hheard, remakeNotices, hears, listened, hall]
    simp [List.count_eq_zero.mpr hout, hout]
  · rw [announceSnapshot_eq_foldl, hall, List.foldl_append]
    simp [receiveSnapshot, hear, hheard, remakeNotices, hears, listened, hall,
      List.count_eq_zero.mpr hout]

/-! ### Passes over a document that has its snapshot -/

/-- In a session in which nothing has failed, the document `d` of the file `f` has its snapshot
`c`. -/
structure Current (s : Session) (f : String) (d : Document) (c : Snapshot) : Prop where
  faultless : s.Faultless
  tidy : s.Tidy
  drawn : s.Drawn
  document : s.buffer.get? f = some d
  snapshot : s.snapshot? f = some c
  built : c.BuiltFrom d

namespace Current

variable {s : Session} {f : String} {d : Document} {c : Snapshot}

theorem drawnFrom (h : s.Current f d c) : ∃ ids, c.DrawnFrom d ids := by
  obtain ⟨d₀, ids, hfile, hdrawn⟩ := h.drawn f c h.snapshot
  -- a snapshot tells all of its document, so there is only one that it can be made of
  obtain rfl : d₀ = d := by
    have hversion := h.built.version
    have hlanguage := h.built.language
    have hsource := h.built.source
    rw [hdrawn.eq] at hversion hlanguage hsource
    rcases d₀ with ⟨_, _, _, _⟩
    rcases d with ⟨_, _, _, _⟩
    obtain rfl := hfile.trans (h.tidy.filed f _ h.document).symm
    obtain rfl := hversion
    obtain rfl := hlanguage
    obtain rfl := hsource
    rfl
  exact ⟨ids, hdrawn⟩

theorem passable (h : s.Current f d c) : s.Passable f true d := by
  have hshown := h.faultless.shown f c h.snapshot
  refine ⟨h.document, h.built.language ▸ hshown.supported, ?_, fun c' hc' => ?_⟩
  · rw [Document.length, ← h.built.source]
    exact hshown.length
  · obtain rfl := Option.some.inj (h.snapshot.symm.trans hc')
    exact Or.inr ⟨rfl, h.built.version⟩

theorem changesWith_eq_nil (h : s.Current f d c) (hin : .history ∈ s.subscribers) :
    s.history.changesWith f c = [] :=
  History.changesWith_eq_nil (((h.faultless.shown f c h.snapshot).baseline hin).imp_right And.right)

/-- The snapshot and the lineage that are there are put in once more. -/
theorem install_eq (h : s.Current f d c) : s.install d = (s.announceSnapshot f, some c) := by
  obtain ⟨ids, hdrawn⟩ := h.drawnFrom
  obtain rfl : d.fileId = f := h.tidy.filed f d h.document
  obtain ⟨l, hl⟩ := Option.isSome_iff_exists.mp (h.faultless.shown _ c h.snapshot).lineage
  have hassign : s.assignment d = (.ok ids, l) := by
    rw [assignment, Index.lineage, hl, h.snapshot]
    exact Lineage.assign_again l hdrawn
  have hindex : { s.index with
      lineages := s.index.lineages.put d.fileId l
      snapshots := s.index.snapshots.put d.fileId c } = s.index := by
    rw [Entries.put_of_get? hl, Entries.put_of_get? h.snapshot]
  unfold Session.install
  rw [if_neg (by simp [h.faultless.fault]), hassign]
  dsimp only
  rw [← hdrawn.eq, hindex]

/-- **A forced pass makes the same snapshot again.** -/
theorem recompute_eq (h : s.Current f d c) :
    s.recompute f = ({ s with
      timers := s.timers.cancel f
      graph := if .graph ∈ s.subscribers then s.graph.replace f c.callEdges else s.graph
      history := if .history ∈ s.subscribers then s.history.recording f c else s.history
      heard := s.heard ++ s.remakeNotices f }, some c) := by
  let s' : Session := { s with timers := s.timers.cancel f }
  have h' : s'.Current f d c :=
    ⟨h.faultless.of_eq rfl, h.tidy.moves (.cancel s f), h.drawn.moves (.cancel s f), h.document,
      h.snapshot, h.built⟩
  have hpass : s.recompute f = (s'.announceSnapshot f, some c) :=
    h'.passable.pass_eq.trans h'.install_eq
  obtain ⟨heard, htold⟩ := tellSnapshot_eq h'.faultless.nodup h'.snapshot
  have hheard : heard = s'.heard ++ s'.remakeNotices f := by
    rw [← h'.faultless.heard_announceSnapshot h'.snapshot h'.changesWith_eq_nil,
      announceSnapshot_eq_foldl, htold]
  rw [hpass, announceSnapshot_eq_foldl, htold, hheard, h'.faultless.graphAfter_eq,
    h'.faultless.historyAfter_eq]
  rfl

end Current

/-! ### Making a snapshot again and again -/

/-- From `s` to `t` the snapshot of the file `f` was made again `n` times. -/
structure Remade (f : String) (n : Nat) (s t : Session) : Prop where
  buffer : t.buffer = s.buffer
  subscribers : t.subscribers = s.subscribers
  index : t.index = s.index
  /-- No list of edges changes, be it of a file or of a symbol.  Only where the indexer was not told
  that the file was closed, the graph gets edges back that it had dropped. -/
  edges : .indexer ∈ s.subscribers ∨ .graph ∉ s.subscribers →
    (∀ g, t.graph.edgesOf g = s.graph.edgesOf g) ∧
      ∀ id, t.graph.callers id = s.graph.callers id ∧ t.graph.callees id = s.graph.callees id
  /-- Nor does the history, which gets a baseline back in the same case. -/
  history : .indexer ∈ s.subscribers ∨ .history ∉ s.subscribers → t.history = s.history
  /-- No event is recorded in any case. -/
  recorded : t.history.recorded = s.history.recorded
  events : ∀ g, t.history.eventsOf g = s.history.eventsOf g
  /-- Each time the listener hears of the snapshot, and before of the edges if there is a graph. -/
  heard : t.heard = s.heard ++ (List.replicate n (s.remakeNotices f)).flatten

theorem Remade.refl (f : String) (s : Session) : Remade f 0 s s :=
  ⟨rfl, rfl, rfl, fun _ => ⟨fun _ => rfl, fun _ => ⟨rfl, rfl⟩⟩, fun _ => rfl, rfl, fun _ => rfl,
    by simp⟩

theorem remakeNotices_of_subscribers (h : t.subscribers = s.subscribers) (f : String) :
    t.remakeNotices f = s.remakeNotices f := by
  rw [remakeNotices, remakeNotices, hears, hears, listened, listened, h]

/-- One time, and `n` more. -/
theorem Remade.trans {n : Nat} {u : Session} (h : Remade f 1 s t) (h' : Remade f n t u) :
    Remade f (n + 1) s u := by
  refine ⟨h'.buffer.trans h.buffer, h'.subscribers.trans h.subscribers, h'.index.trans h.index,
    fun hin => ?_, fun hin => (h'.history (by rwa [h.subscribers])).trans (h.history hin),
    h'.recorded.trans h.recorded, fun g => (h'.events g).trans (h.events g), ?_⟩
  · obtain ⟨hfiles, hids⟩ := h.edges hin
    obtain ⟨hfiles', hids'⟩ := h'.edges (by rwa [h.subscribers])
    exact ⟨fun g => (hfiles' g).trans (hfiles g), fun id =>
      ⟨(hids' id).1.trans (hids id).1, (hids' id).2.trans (hids id).2⟩⟩
  · rw [h'.heard, h.heard, remakeNotices_of_subscribers h.subscribers]
    simp [List.replicate_succ]

namespace Current

variable {s : Session} {f : String} {d : Document} {c : Snapshot}

theorem remade (h : s.Current f d c) : Remade f 1 s (s.recompute f).1 := by
  have hshown := h.faultless.shown f c h.snapshot
  rw [h.recompute_eq]
  refine ⟨rfl, rfl, rfl, fun hin => ?_, fun hin => ?_, ?_, fun g => ?_, by simp⟩
  · dsimp only
    split_ifs with hgraph
    · have hindexer := hin.resolve_right (not_not_intro hgraph)
      have hedges := (hshown.edges hgraph).resolve_right fun hout => hout.1 hindexer
      exact h.tidy.identifies.graph.replace_same hedges
    · exact ⟨fun _ => rfl, fun _ => ⟨rfl, rfl⟩⟩
  · dsimp only
    split_ifs with hhistory
    · have hindexer := hin.resolve_right (not_not_intro hhistory)
      have hbaseline := (hshown.baseline hhistory).resolve_right fun hout => hout.1 hindexer
      exact History.recording_baseline hbaseline
    · rfl
  · dsimp only
    split_ifs with hhistory
    · exact History.recorded_recording (h.changesWith_eq_nil hhistory)
    · rfl
  · dsimp only
    split_ifs with hhistory
    · exact History.eventsOf_recording (h.changesWith_eq_nil hhistory) g
    · rfl

/-- Recomputing keeps a current file current. -/
theorem recompute (h : s.Current f d c) : (s.recompute f).1.Current f d c := by
  have hremade := h.remade
  have hop : (Op.recompute f).disposes = false := rfl
  have hreaches : Reaches s (s.recompute f).1 := (follows_step s hop).reaches
  have hfaultless : (s.step (.recompute f)).1.Faultless := h.faultless.step rfl
  refine ⟨hfaultless, h.tidy.reaches hreaches, h.drawn.reaches hreaches, ?_, ?_, h.built⟩
  · rw [hremade.buffer, h.document]
  · rw [snapshot?, hremade.index]
    exact h.snapshot

/-- **Any number of forced passes in a row.** -/
theorem run_recompute (h : s.Current f d c) (n : Nat) :
    Remade f n s (s.run (List.replicate n (.recompute f))) ∧
      (s.run (List.replicate n (.recompute f))).Current f d c := by
  induction n generalizing s with
  | zero => exact ⟨.refl f s, h⟩
  | succ n ih =>
    obtain ⟨hremade, hcurrent⟩ := ih h.recompute
    exact ⟨h.remade.trans hremade, hcurrent⟩

end Current

/-- A scheduled pass leaves a snapshot of the same version alone. -/
theorem scheduledPass_of_version {d : Document} (hd : s.buffer.get? f = some d)
    (hc : s.snapshot? f = some c) (hversion : c.version = d.version) :
    s.scheduledPass f = s.note (.current f d.version) ∧ s.scheduledPassCalls f = [] := by
  unfold scheduledPass scheduledPassCalls
  rw [hd, hc]
  exact ⟨if_pos hversion.symm, if_pos hversion.symm⟩

theorem PassOver.unmoved_of_version {cs : List Call} (h : PassOver f false s cs t) {d : Document}
    (hd : s.buffer.get? f = some d) (hc : s.snapshot? f = some c)
    (hversion : c.version = d.version) : Unmoved f s t ∧ cs = [] := by
  obtain ⟨timers, hwaiting, rfl, rfl⟩ := h.scheduled
  obtain ⟨hpass, hcalls⟩ :=
    scheduledPass_of_version (s := { s with timers := timers }) hd hc hversion
  rw [hpass]
  exact ⟨⟨rfl, rfl, rfl, rfl, rfl, rfl, rfl, rfl, rfl, hwaiting⟩, hcalls⟩

/-- **Making a snapshot again changes nothing**, however often it is done, and is heard of each
time; a scheduled pass does not even make it. -/
theorem Fresh.recompute_idempotent {config : Config} {s₀ : Session} (h₀ : Fresh config s₀)
    {ops : List Op} (hops : ∀ op ∈ ops, op.faultless = true) {f : String} {d : Document}
    {c : Snapshot} (hd : (s₀.run ops).buffer.get? f = some d)
    (hc : (s₀.run ops).snapshot? f = some c) (hbuilt : c.BuiltFrom d) :
    let s := s₀.run ops
    (∀ n, Remade f n s (s.run (List.replicate n (.recompute f))) ∧
      ((s.run (List.replicate n (.recompute f))).step (.recompute f)).2 = .snapshot (some c)) ∧
    (∀ cs t, PassOver f false s cs t → Unmoved f s t ∧ cs = []) ∧
    ((∀ op ∈ ops, op.disposes = false) →
      ∀ part ∈ [.indexer, .graph, .history], part ∈ s.subscribers) := by
  intro s
  have hcurrent : s.Current f d c :=
    ⟨h₀.faultless.run hops, (h₀.anytime ops .refl).1, (h₀.reachable.run ops).drawn, hd, hc, hbuilt⟩
  refine ⟨fun n => ?_, fun cs t h => h.unmoved_of_version hd hc hbuilt.version,
    fun hkept part hpart => (h₀.regular.run hkept).mem_subscribers hpart⟩
  obtain ⟨hremade, hagain⟩ := hcurrent.run_recompute n
  refine ⟨hremade, ?_⟩
  rw [Session.step, hagain.recompute_eq]

/-- A function that was renamed keeps the id of its old name, and has it still when the snapshot has
been made again three times. -/
theorem renamed_recompute_idempotent :
    let s₀ := (new .default false (.holding [⟨"a.ts", calling "b", "typescript", 1⟩])).subscribe
      .listener
    let s := s₀.run [.update "a.ts" (calling "c")]
    let t := s.run (List.replicate 3 (.recompute "a.ts"))
    (s.snapshot? "a.ts").map (·.declared.map fun x => (x.id, x.name)) =
        some [("a.ts::a@1", "a"), ("a.ts::b@2", "c")] ∧
      t.index = s.index ∧ (∀ g, t.graph.edgesOf g = s.graph.edgesOf g) ∧
      t.history = s.history ∧
      t.heard = s.heard ++
        (List.replicate 3 [.graphUpdated "a.ts", .snapshotUpdated "a.ts"]).flatten ∧
      ∀ cs u, PassOver "a.ts" false s cs u → Unmoved "a.ts" s u ∧ cs = [] := by
  intro s₀ s t
  have h₀ : Fresh .default s₀ := .listen (.new false [⟨"a.ts", calling "b", "typescript", 1⟩])
  have hd : s.buffer.get? "a.ts" = some ⟨"a.ts", calling "c", "typescript", 2⟩ := by
    decide +kernel
  have hmade : (s.snapshot? "a.ts").map (fun c => (c.version, c.language, c.source)) =
      some (2, "typescript", calling "c") := by decide +kernel
  obtain ⟨c, hc, hbuilt⟩ := Option.map_eq_some_iff.mp hmade
  have hbuilt : c.BuiltFrom ⟨"a.ts", calling "c", "typescript", 2⟩ := by
    simp only [Prod.mk.injEq] at hbuilt
    exact ⟨hbuilt.1, hbuilt.2.1, hbuilt.2.2⟩
  obtain ⟨hagain, hscheduled, hparts⟩ := h₀.recompute_idempotent (by decide) hd hc hbuilt
  have hremade := (hagain 3).1
  have hindexer : .indexer ∈ s.subscribers := hparts (by decide) _ (by decide)
  have hnotices : s.remakeNotices "a.ts" = [.graphUpdated "a.ts", .snapshotUpdated "a.ts"] := by
    decide +kernel
  exact ⟨by decide +kernel, hremade.index, (hremade.edges (Or.inl hindexer)).1,
    hremade.history (Or.inl hindexer), hnotices ▸ hremade.heard, hscheduled⟩

/-- An indexer that was disposed of keeps its snapshot of a file that is closed and opened again, so
the edges that the graph has dropped come back when the snapshot is made again.  And a graph that
was disposed of is not heard of. -/
theorem disposed_recompute_differs :
    let d : Document := ⟨"a.ts", calling "b", "typescript", 1⟩
    let s := (new .default false (.holding [d])).subscribe .listener
    let reopened := s.run [.dispose .indexer, .recompute "a.ts", .close "a.ts",
      .openDocument "a.ts" (calling "b") "typescript" 1]
    let ungraphed := s.run [.dispose .graph]
    reopened.fault = none ∧ reopened.buffer.get? "a.ts" = some d ∧
      (reopened.snapshot? "a.ts").map (fun c => (c.version, c.language, c.source)) =
        some (1, "typescript", calling "b") ∧
      reopened.graph.edgesOf "a.ts" = [] ∧
      (reopened.recompute "a.ts").1.graph.edgesOf "a.ts" = [⟨"a.ts::a@1", "a.ts::b@2"⟩] ∧
      ungraphed.fault = none ∧ ungraphed.buffer.get? "a.ts" = some d ∧
      (ungraphed.snapshot? "a.ts").map (fun c => (c.version, c.language, c.source)) =
        some (1, "typescript", calling "b") ∧
      (ungraphed.recompute "a.ts").1.heard = ungraphed.heard ++ [.snapshotUpdated "a.ts"] := by
  decide +kernel

end Session
end SymbolAtlas
