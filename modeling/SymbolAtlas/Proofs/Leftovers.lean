import Mathlib.Data.List.Induction
import SymbolAtlas.Proofs.CallIndex
import SymbolAtlas.Proofs.Derived

/-!
# What a forgotten file leaves behind

The index forgets a file in two ways.  When the document is closed, everybody hears of it, and graph
and history forget the file too.  When a pass finds the document in a language that is not
supported, the index alone forgets it: edges and baseline stay (`leftovers_after_drop`), and stay
until the file is closed.  So a file has left nothing behind exactly if it was closed after every
snapshot it ever had (`Session.Fresh.nothingLeft_iff`).
-/

namespace SymbolAtlas
namespace FileState

/-- Graph and history know a file together, they know it if it has a snapshot, and they do not
know it without a document. -/
structure Held (x : FileState) : Prop where
  faultless : x.fault = none
  together : x.edges = none ↔ x.baseline = none
  snapshot : x.edges = none → x.snapshot = none
  document : x.document = none → x.edges = none

/-- The graph comes to know a file by a snapshot, and forgets it when it is closed. -/
def Leaves (f : String) (op : Session.Op) (x z : FileState) : Prop :=
  z.Held ∧ (z.edges ≠ none ↔ z.snapshot ≠ none ∨ x.edges ≠ none ∧ op ≠ .close f)

theorem held_unread (config : Config) (clocked : Bool) (document : Option Document) :
    (unread config clocked document).Held :=
  ⟨rfl, iff_of_true rfl rfl, fun _ => rfl, fun _ => rfl⟩

variable {f : String} {op : Session.Op} {x y z : FileState}

/-- A closed file leaves nothing. -/
theorem Held.leaves_close (h : x.Held) (now : Int) :
    Leaves f (.close f) x (x.step f now (.close f)) := by
  rw [step_close]
  split_ifs with hopen
  · exact ⟨⟨h.faultless, iff_of_true rfl rfl, fun _ => rfl, fun _ => rfl⟩,
      by simp [closed, forget]⟩
  · have hedges := h.document (Option.not_isSome_iff_eq_none.mp hopen)
    exact ⟨h, by simp [hedges, h.snapshot hedges]⟩

theorem Held.prepares (h : x.Held) (hop : op.ordinary = true) (hy : Prepares f op x y) :
    y.Held ∧ y.edges = x.edges := by
  refine ⟨⟨(hy.fault hop).trans h.faultless, ?_, ?_, fun hn => ?_⟩, hy.edges⟩
  · rw [hy.edges, hy.baseline]
    exact h.together
  · rw [hy.edges, hy.snapshot]
    exact h.snapshot
  · rw [hy.edges]
    exact h.document (hy.document_eq_none hn)

theorem Held.idle (h : y.Held) (hclose : op ≠ .close f) : Leaves f op y y := by
  refine ⟨h, fun he => Or.inr ⟨he, hclose⟩, fun hor => ?_⟩
  rcases hor with hsnapshot | ⟨hedges, -⟩
  · exact fun hn => hsnapshot (h.snapshot hn)
  · exact hedges

/-- A pass leaves what belongs to an open file. -/
theorem Held.passes (h : y.Held) (hclose : op ≠ .close f) (hz : Passes y z) :
    Leaves f op y z := by
  cases hz with
  | untracked | tooLong | stale | failed => exact h.idle hclose
  | dropped hd ht =>
    exact ⟨⟨h.faultless, h.together, fun _ => rfl, h.document⟩, by simp [forget, hclose]⟩
  | stranded hd ha => exact ⟨⟨h.faultless, h.together, h.snapshot, h.document⟩, (h.idle hclose).2⟩
  | @installed d ids l hd hlong hold hf ha =>
    have hfault := h.faultless
    refine ⟨⟨hfault, by simp [installed, hfault], by simp [installed, hfault], fun hn => ?_⟩,
      by simp [installed, hfault]⟩
    have hopen : y.document = some d := document_of_supported hd
    exact absurd (hopen.symm.trans hn) (by simp)

/-- So does every operation. -/
theorem Held.leaves (h : x.Held) (hop : op.ordinary = true) (now : Int) :
    Leaves f op x (x.step f now op) := by
  by_cases hclose : op = .close f
  · subst hclose
    exact h.leaves_close now
  · obtain ⟨y, hy, hz⟩ := step_processed (Session.Op.regular_of_ordinary hop) hclose now x
    obtain ⟨hheld, hedges⟩ := h.prepares hop hy
    rw [Leaves, ← hedges]
    rcases hz with rfl | hz
    · exact hheld.idle hclose
    · exact hheld.passes hclose hz

end FileState

namespace Session

/-- Graph and history hold nothing of a file: no edges, no place among the files, no edge with an
end in the file in any bucket, and no baseline. -/
structure NothingLeft (s : Session) (f : String) : Prop where
  edges : s.graph.edgesOf f = []
  file : s.graph.hasFile f = false
  buckets : ∀ x, ∀ e ∈ s.graph.callers x ++ s.graph.callees x,
    ¬ IsIdOf f e.caller ∧ ¬ IsIdOf f e.callee
  baseline : s.history.hasBaseline f = false

/-- Nothing is left of a file if it has neither edges nor a baseline. -/
theorem nothingLeft_iff_file {s : Session} (hs : s.Reachable) {f : String} :
    s.NothingLeft f ↔ (s.file f).edges = none ∧ (s.file f).baseline = none := by
  constructor
  · intro h
    exact ⟨Option.not_isSome_iff_eq_none.mp (Bool.eq_false_iff.mp h.file),
      Option.not_isSome_iff_eq_none.mp (Bool.eq_false_iff.mp h.baseline)⟩
  · rintro ⟨hedges, hbaseline⟩
    have hnone : s.graph.files.get? f = none := hedges
    have hsound := hs.identifies.graph
    have hexact := hsound.exact
    refine ⟨?_, ?_, fun x e he => ?_, ?_⟩
    · rw [CallGraph.edgesOf, hnone, Option.getD_none]
    · rw [CallGraph.hasFile, Entries.has, hnone, Option.isSome_none]
    · have hall : e ∈ s.graph.edges := by
        rw [hexact.callers, hexact.callees] at he
        rcases List.mem_append.mp he with he | he
        · exact (List.mem_filter.mp he).1
        · exact (List.mem_filter.mp he).1
      -- the edge belongs to a file, and both its ends are ids of that file
      obtain ⟨es, hes, hin⟩ := List.mem_flatten.mp hall
      obtain ⟨⟨g, es'⟩, hmem, rfl⟩ := List.mem_map.mp hes
      have hget := Entries.get?_of_mem hsound.keys hmem
      have hends := (hsound.files g es' hget).2 e hin
      have hne : g ≠ f := fun hgf => by simp [hgf ▸ hget] at hnone
      exact ⟨fun hid => hne (hends.1.unique hid), fun hid => hne (hends.2.unique hid)⟩
    · rw [History.hasBaseline, show (s.history.ofFile f).baseline = none from hbaseline,
        Option.isSome_none]

theorem Fresh.reachable {config : Config} {s : Session} (h : Fresh config s) : s.Reachable := by
  induction h with
  | new clocked documents => exact reachable_new config clocked _
  | listen _ ih => exact ih.subscribe _

/-- The graph knows a file if and only if it was not closed since it last had a snapshot. -/
theorem Fresh.edges_iff {config : Config} {s : Session} (hs : Fresh config s) (f : String)
    {ops : List Op} (hops : ∀ op ∈ ops, op.ordinary = true) :
    ((s.run ops).file f).Held ∧ (((s.run ops).file f).edges ≠ none ↔
      ∃ before after, ops = before ++ after ∧ (s.run before).snapshot? f ≠ none ∧
        .close f ∉ after) := by
  induction ops using List.reverseRecOn with
  | nil =>
    obtain ⟨clocked, document, hfile⟩ := hs.file f
    have hordinary : Op.start.ordinary = true := rfl
    have hstart := (FileState.held_unread config clocked document).leaves (f := f) hordinary 0
    rw [show FileState.step f 0 _ .start = s.file f from hfile.symm] at hstart
    refine ⟨hstart.1, hstart.2.trans ?_⟩
    constructor
    · rintro (hsnapshot | ⟨hedges, -⟩)
      · exact ⟨[], [], rfl, hsnapshot, by simp⟩
      · exact absurd rfl hedges
    · rintro ⟨before, after, happend, hsnapshot, -⟩
      obtain ⟨rfl, rfl⟩ := List.nil_eq_append_iff.mp happend
      exact Or.inl hsnapshot
  | append_singleton ops op ih =>
    obtain ⟨hheld, hiff⟩ := ih fun op' hop' => hops op' (by simp [hop'])
    have hop := hops op (by simp)
    have hregular : (s.run ops).Regular := hs.regular.run fun op' hop' =>
      Op.disposes_of_regular (Op.regular_of_ordinary (hops op' (by simp [hop'])))
    have hrun : s.run (ops ++ [op]) = ((s.run ops).step op).1 := run_append s ops [op]
    have hstep := hheld.leaves (f := f) hop (s.run ops).timers.now
    rw [← file_step hregular (Op.disposes_of_regular (Op.regular_of_ordinary hop)), ← hrun,
      FileState.Leaves, hiff] at hstep
    refine ⟨hstep.1, hstep.2.trans ?_⟩
    constructor
    · rintro (hsnapshot | ⟨⟨before, after, rfl, hsnapshot, hclose⟩, hop'⟩)
      · exact ⟨ops ++ [op], [], by simp, hsnapshot, by simp⟩
      · exact ⟨before, after ++ [op], by simp, hsnapshot, by simp [hclose, Ne.symm hop']⟩
    · rintro ⟨before, after, happend, hsnapshot, hclose⟩
      rcases List.eq_nil_or_concat after with rfl | ⟨after, last, rfl⟩
      · rw [List.append_nil] at happend
        exact Or.inl (happend ▸ hsnapshot)
      · rw [List.concat_eq_append, ← List.append_assoc] at happend
        obtain ⟨rfl, hlast⟩ := List.append_inj' happend rfl
        obtain rfl := List.singleton_inj.mp hlast
        simp only [List.concat_eq_append, List.mem_append, List.mem_singleton, not_or] at hclose
        exact Or.inr ⟨⟨before, after, rfl, hsnapshot, hclose.1⟩, Ne.symm hclose.2⟩

/-- **A file has left nothing behind exactly if it was closed after every snapshot it had.**  Where
it has no snapshot any more but was not closed, edges and baseline of the last one are still
there. -/
theorem Fresh.nothingLeft_iff {config : Config} {s : Session} (hs : Fresh config s)
    {ops : List Op} (hops : ∀ op ∈ ops, op.ordinary = true) (f : String) :
    (s.run ops).NothingLeft f ↔
      ∀ before after, ops = before ++ after → (s.run before).snapshot? f ≠ none →
        .close f ∈ after := by
  obtain ⟨hheld, hiff⟩ := hs.edges_iff f hops
  rw [nothingLeft_iff_file (hs.reachable.run ops), ← hheld.together, and_self]
  constructor
  · intro hedges before after happend hsnapshot
    by_contra hclose
    exact hiff.mpr ⟨before, after, happend, hsnapshot, hclose⟩ hedges
  · intro hclosed
    by_contra hedges
    obtain ⟨before, after, happend, hsnapshot, hclose⟩ := hiff.mp hedges
    exact hclose (hclosed before after happend hsnapshot)

/-- A function that calls itself is opened, and the document is opened again in a language that is
not supported. -/
def reopenedAsText : List Op :=
  [.openDocument "a.ts" "function a() { a(); }".toList "typescript" 1,
    .openDocument "a.ts" [] "plaintext" 1]

/-- Closing the document after all clears what was left. -/
theorem nothingLeft_after_close :
    ((new .default false (.holding [])).run (reopenedAsText ++ [.close "a.ts"])).NothingLeft
      "a.ts" := by
  refine (Fresh.nothingLeft_iff (.new false []) (by decide) "a.ts").mpr ?_
  intro before after happend hsnapshot
  rcases List.eq_nil_or_concat after with rfl | ⟨after, last, rfl⟩
  · rw [List.append_nil] at happend
    subst happend
    exact absurd (by decide +kernel) hsnapshot
  · rw [List.concat_eq_append, ← List.append_assoc] at happend
    have hlast := List.singleton_inj.mp (List.append_inj' happend rfl).2
    simp [← hlast]

/-- **A dropped file leaves its edges and its baseline behind.**  It has no snapshot any more, but
its edges are still in the graph, and when it is opened again in a supported language the history
records the removal of a symbol of the snapshot that was dropped. -/
theorem leftovers_after_drop :
    let dropped := (new .default false (.holding [])).run reopenedAsText
    dropped.snapshot? "a.ts" = none ∧
      dropped.graph.edgesOf "a.ts" = [⟨"a.ts::a@1", "a.ts::a@1"⟩] ∧
      dropped.graph.callers "a.ts::a@1" = [⟨"a.ts::a@1", "a.ts::a@1"⟩] ∧
      dropped.graph.hasFile "a.ts" = true ∧ dropped.history.hasBaseline "a.ts" = true ∧
      ((dropped.step (.openDocument "a.ts" [] "typescript" 1)).1.history.eventsOf "a.ts").map
        Event.change = [.removed "a.ts::a@1" "a"] := by
  decide +kernel

end Session
end SymbolAtlas
