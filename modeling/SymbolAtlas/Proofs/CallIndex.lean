import SymbolAtlas.Proofs.CallGraph
import SymbolAtlas.Proofs.Moves
import SymbolAtlas.Proofs.Snapshot

/-!
# The call graph of a session

In every session, and during every call of a subscriber, the indexes of the call graph are views
of the edges of the files (`Session.Reachable.exact_during_calls`).  The graph depends on the
index: edges come from snapshots, and that the edges of two files never share an end is due to the
ids that lineages assign.  `Session.Identifies` says this of a whole session, and every move
keeps it.
-/

namespace SymbolAtlas

@[simp] theorem Index.lineages_track (ix : Index) (f : String) :
    (ix.track f).lineages = ix.lineages := by
  unfold track
  split_ifs <;> rfl

@[simp] theorem Index.snapshots_track (ix : Index) (f : String) :
    (ix.track f).snapshots = ix.snapshots := by
  unfold track
  split_ifs <;> rfl

theorem Index.mem_tracked_track {ix : Index} {f g : String} (h : g ≠ f) :
    f ∈ (ix.track g).tracked ↔ f ∈ ix.tracked := by
  unfold track
  split_ifs
  · rfl
  · simp [Ne.symm h]

namespace Session

variable {s t : Session}

/-- After a move a snapshot is one that was there before, or one just made with the ids that the
lineage of its file has assigned. -/
theorem Moves.snapshot_cases (h : Moves s t) {f : String} {c : Snapshot}
    (hc : t.snapshot? f = some c) :
    s.snapshot? f = some c ∨ ∃ d ids l, d.fileId = f ∧ s.assignment d = (.ok ids, l) ∧
      c = .ofOutline d (Outline.ofText d.content) ids := by
  cases h with
  | install hd hassign =>
    rename_i g d ids l
    simp only [snapshot?, Entries.get?_put] at hc
    split_ifs at hc with hf
    · exact Or.inr ⟨d, ids, l, hf.symm, hassign, (Option.some.inj hc).symm⟩
    · exact Or.inl hc
  | forget g =>
    simp only [snapshot?, Index.forget, Entries.get?_erase] at hc
    split_ifs at hc
    exact Or.inl hc
  | track g =>
    simp only [snapshot?, Index.snapshots_track] at hc
    exact Or.inl hc
  | _ => exact Or.inl hc

/-- Every lineage belongs to its file, the symbols of every snapshot bear ids of its file, and the
graph is sound. -/
structure Identifies (s : Session) : Prop where
  lineages : ∀ f l, s.index.lineages.get? f = some l → l.fileId = f
  snapshots : ∀ f snapshot, s.snapshot? f = some snapshot → Lineage.Identified f snapshot
  graph : s.graph.Sound

/-- A lineage bears the id of its file. -/
theorem Identifies.lineage (h : s.Identifies) (f : String) (capacity : Int) :
    (s.index.lineage f capacity).fileId = f := by
  unfold Index.lineage
  cases hl : s.index.lineages.get? f with
  | none => rfl
  | some l => exact h.lineages f l hl

/-- The ids that a document gets are ids of its file. -/
theorem Identifies.assignment (h : s.Identifies) (d : Document) :
    (s.assignment d).2.fileId = d.fileId ∧ ∀ ids, (s.assignment d).1 = .ok ids →
      Lineage.Identified d.fileId (.ofOutline d (Outline.ofText d.content) ids) :=
  Lineage.assign_identified (h.lineage d.fileId s.config.maxRetiredIds) (h.snapshots d.fileId)

theorem Identifies.put_lineage (h : s.Identifies) {f : String} {l : Lineage} (hl : l.fileId = f) :
    ∀ g l', (s.index.lineages.put f l).get? g = some l' → l'.fileId = g := by
  intro g l' hg
  rw [Entries.get?_put] at hg
  split_ifs at hg with hgf
  · rw [← Option.some.inj hg, hl, hgf]
  · exact h.lineages g l' hg

theorem identifies_blank (config : Config) (clocked : Bool) (buffer : Buffer)
    (subscribers : List Subscriber) : (blank config clocked buffer subscribers).Identifies :=
  ⟨fun f l h => by simp [blank, Index.empty] at h,
    fun f l h => by simp [blank, Index.empty, snapshot?] at h, CallGraph.sound_empty⟩

/-- **Every move keeps lineages, snapshots and edges with their files.** -/
theorem Identifies.moves (h : s.Identifies) (hm : Moves s t) : t.Identifies := by
  cases hm with
  | note | hear | cancel | schedule | goOff | setClock | put | remove | history | fault =>
    exact ⟨h.lineages, h.snapshots, h.graph⟩
  | track f =>
    refine ⟨?_, ?_, h.graph⟩
    · simpa only [Index.lineages_track] using h.lineages
    · simpa only [snapshot?, Index.snapshots_track] using h.snapshots
  | forget f =>
    refine ⟨fun g l hg => ?_, fun g snapshot hg => ?_, h.graph⟩
    · simp only [Index.forget, Entries.get?_erase] at hg
      split_ifs at hg
      exact h.lineages g l hg
    · simp only [snapshot?, Index.forget, Entries.get?_erase] at hg
      split_ifs at hg
      exact h.snapshots g snapshot hg
  | strand hd hassign =>
    rename_i f d e l
    have hid := (h.assignment d).1
    rw [hassign] at hid
    exact ⟨h.put_lineage hid, h.snapshots, h.graph⟩
  | install hd hassign =>
    rename_i f d ids l
    obtain ⟨hid, hids⟩ := h.assignment d
    rw [hassign] at hid hids
    refine ⟨h.put_lineage hid, fun g snapshot hg => ?_, h.graph⟩
    simp only [snapshot?, Entries.get?_put] at hg
    split_ifs at hg with hgd
    · rw [← Option.some.inj hg, hgd]
      exact hids ids rfl
    · exact h.snapshots g snapshot hg
  | replaceEdges hf =>
    rename_i f snapshot
    have hsnapshot := h.snapshots f snapshot hf
    exact ⟨h.lineages, h.snapshots, h.graph.replace snapshot.nodup_callEdges
      fun e he => Snapshot.isIdOf_of_mem_callEdges hsnapshot he⟩
  | dropEdges f => exact ⟨h.lineages, h.snapshots, h.graph.drop f⟩

/-- Moves keep ids with their files. -/
theorem Identifies.reaches (h : s.Identifies) (hr : Reaches s t) : t.Identifies := by
  induction hr with
  | refl => exact h
  | tail _ hm ih => exact ih.moves hm

/-- So does disposal. -/
theorem Identifies.dispose (h : s.Identifies) (part : Part) : (s.dispose part).Identifies := by
  have hempty : ∀ {t : Session}, t.index = .empty → t.graph.Sound → t.Identifies := by
    intro t hindex hgraph
    refine ⟨fun f l hl => ?_, fun f snapshot hf => ?_, hgraph⟩
    · simp [hindex, Index.empty] at hl
    · simp [hindex, Index.empty, snapshot?] at hf
  cases part with
  | session => exact hempty rfl CallGraph.sound_empty
  | indexer => exact hempty rfl h.graph
  | graph => exact ⟨h.lineages, h.snapshots, CallGraph.sound_empty⟩
  | history => exact ⟨h.lineages, h.snapshots, h.graph⟩

/-- And every operation. -/
theorem Identifies.step (h : s.Identifies) (op : Op) : (s.step op).1.Identifies := by
  cases op with
  | dispose part => exact h.dispose part
  | _ => exact h.reaches (follows_step s rfl).reaches

/-! ### Sessions -/

/-- The sessions there can be: any operations in any order, with subscribers coming and going. -/
inductive Reachable : Session → Prop
  | blank (config : Config) (clocked : Bool) (buffer : Buffer) (subscribers : List Subscriber) :
      Reachable (blank config clocked buffer subscribers)
  | note {s : Session} (h : Reachable s) (d : Diagnostic) : Reachable (s.note d)
  | subscribe {s : Session} (h : Reachable s) (who : Subscriber) : Reachable (s.subscribe who)
  | unsubscribe {s : Session} (h : Reachable s) (who : Subscriber) : Reachable (s.unsubscribe who)
  | step {s : Session} (h : Reachable s) (op : Op) : Reachable (s.step op).1

theorem reachable_new (config : Config) (clocked : Bool) (buffer : Buffer) :
    (new config clocked buffer).Reachable :=
  .note (.step (.blank config clocked buffer _) .start) _

/-- Runs lead to what can be reached. -/
theorem Reachable.run (h : s.Reachable) (ops : List Op) : (s.run ops).Reachable := by
  induction ops generalizing s with
  | nil => exact h
  | cons op ops ih => exact ih (h.step op)

theorem Reachable.identifies (h : s.Reachable) : s.Identifies := by
  induction h with
  | blank config clocked buffer subscribers => exact identifies_blank config clocked buffer _
  | note _ _ ih | subscribe _ _ ih | unsubscribe _ _ ih =>
    exact ⟨ih.lineages, ih.snapshots, ih.graph⟩
  | step _ op ih => exact ih.step op

/-- Disposal is not heard of. -/
theorem heard_dispose (s : Session) (part : Part) :
    (s.step (.dispose part)).1.heard = s.heard ++ told (s.calls (.dispose part)) := by
  cases part <;> simp [calls, told, Session.step, dispose, disposeHistory, disposeGraph,
    disposeIndexer, Session.unsubscribe]

/-- **The indexes by caller and by callee are views of the edges of the files**, in every session
and whenever a subscriber is called, whatever the operation.  That the calls are those of the
operation shows in what the listener hears. -/
theorem Reachable.exact_during_calls {s : Session} (h : s.Reachable) :
    s.graph.Exact ∧ ∀ op, (∀ c ∈ s.calls op, c.session.graph.Exact) ∧
      (s.step op).1.heard = s.heard ++ told (s.calls op) := by
  have hbetween : ∀ {cs t}, Follows s cs t →
      (∀ c ∈ cs, c.session.graph.Exact) ∧ t.heard = s.heard ++ told cs := fun hfollows =>
    ⟨fun c hc => (h.identifies.reaches (hfollows.calls c hc)).graph.exact, hfollows.heard⟩
  refine ⟨h.identifies.graph.exact, fun op => ?_⟩
  cases op with
  | dispose part => exact ⟨fun c hc => by simp [calls] at hc, heard_dispose s part⟩
  | _ => exact hbetween (follows_step s rfl)

/-- Two files, each with a function that calls itself, and a listener. -/
def twoCallers : Session :=
  ((new .default false (.new false)).subscribe .listener).run
    [.openDocument "a.ts" "function f() { f(); }".toList "typescript" 1,
      .openDocument "b.ts" "function f() { f(); }".toList "typescript" 1]

/-- When one of two files is closed, five calls find a graph in order. -/
theorem twoCallers_exact_during_close :
    twoCallers.graph.callers "b.ts::f@1" = [⟨"b.ts::f@1", "b.ts::f@1"⟩] ∧
      (twoCallers.calls (.close "a.ts")).length = 5 ∧ twoCallers.graph.Exact ∧
      ∀ c ∈ twoCallers.calls (.close "a.ts"), c.session.graph.Exact := by
  have hreachable : twoCallers.Reachable := ((reachable_new _ _ _).subscribe _).run _
  have hexact := hreachable.exact_during_calls
  exact ⟨by decide +kernel, by decide +kernel, hexact.1, (hexact.2 _).1⟩

end Session
end SymbolAtlas
