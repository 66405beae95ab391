import SymbolAtlas.Proofs.Change
import SymbolAtlas.Proofs.Snapshot

/-!
# The life of a symbol

What a history records of a symbol is one life (`OneLife`): the symbol is added, unless it was there
from the beginning, renamed any number of times, and removed.

The history may have missed snapshots, so its baseline may show ids that are gone and lack ids that
have come and gone.  `Accounted` says how the two fit together: an id that the baseline shows is
alive or gone, and an id whose removal is recorded is gone.  Another snapshot that gives away none
of the ids that are gone keeps it so (`Accounted.install`), and so does comparing the snapshot with
the baseline (`Accounted.record`), however many snapshots came in between.
-/

namespace SymbolAtlas

variable {x : String} {cs : List Change}

/-! ### One life -/

/-- What is recorded of a symbol while it is there: at most its addition, and not even that if it
was there from the beginning, and then renamings. -/
def Living (x : String) (early : Prop) (cs : List Change) : Prop :=
  ∃ added renamed, cs = added ++ renamed ∧ added.length ≤ 1 ∧ (early → added = []) ∧
    (∀ c ∈ added, ∃ name, c = .added x name) ∧ ∀ c ∈ renamed, ∃ old new, c = .renamed x old new

/-- What is recorded of a symbol in all: what is recorded while it is there, then at most its
removal, and nothing after that. -/
def OneLife (x : String) (early : Prop) (cs : List Change) : Prop :=
  ∃ living removed, cs = living ++ removed ∧ Living x early living ∧ removed.length ≤ 1 ∧
    ∀ c ∈ removed, ∃ name, c = .removed x name

theorem living_nil (x : String) (early : Prop) : Living x early [] :=
  ⟨[], [], rfl, by simp, fun _ => rfl, by simp, by simp⟩

theorem living_added {early : Prop} (h : ¬ early) (name : String) :
    Living x early [.added x name] :=
  ⟨[.added x name], [], rfl, by simp, fun he => absurd he h, by simp, by simp⟩

/-- A symbol that lives may be renamed. -/
theorem Living.renamed {early : Prop} (h : Living x early cs) (old new : String) :
    Living x early (cs ++ [.renamed x old new]) := by
  obtain ⟨added, renamed, rfl, hlen, hearly, hadded, hrenamed⟩ := h
  refine ⟨added, renamed ++ [.renamed x old new], by simp, hlen, hearly, hadded, fun c hc => ?_⟩
  rcases List.mem_append.mp hc with hc | hc
  · exact hrenamed c hc
  · exact ⟨old, new, List.mem_singleton.mp hc⟩

/-- Its life ends when it is removed. -/
theorem Living.removed {early : Prop} (h : Living x early cs) (name : String) :
    OneLife x early (cs ++ [.removed x name]) :=
  ⟨cs, [.removed x name], rfl, h, by simp, by simp⟩

theorem Living.oneLife {early : Prop} (h : Living x early cs) : OneLife x early cs :=
  ⟨cs, [], by simp, h, by simp, by simp⟩

/-- How far the life of a symbol is recorded: it is there, nothing is known of it, or it is over.
A symbol whose life is over is gone. -/
inductive Phase (x : String) (early known gone : Prop) (cs : List Change) : Prop
  | alive (hk : known) (h : Living x early cs)
  | unheard (hk : ¬ known) (he : ¬ early) (h : cs = [])
  | ended (hk : ¬ known) (hg : gone) (h : OneLife x early cs)

/-- In each phase there is one life at most. -/
theorem Phase.oneLife {early known gone : Prop} (h : Phase x early known gone cs) :
    OneLife x early cs := by
  cases h with
  | alive _ h => exact h.oneLife
  | unheard _ _ h => exact h ▸ (living_nil x early).oneLife
  | ended _ _ h => exact h

theorem Phase.mono {early known gone gone' : Prop} (h : Phase x early known gone cs)
    (hg : gone → gone') : Phase x early known gone' cs := by
  cases h with
  | alive hk h => exact .alive hk h
  | unheard hk he h => exact .unheard hk he h
  | ended hk hgone h => exact .ended hk (hg hgone) h

/-! ### Snapshots of one file -/

namespace Snapshot

/-- The ids of the declarations of a snapshot. -/
def declaredIds (s : Snapshot) : List String := s.declared.map Symbol.id

/-- The symbols of the snapshot are the file and its declarations. -/
def OfFile (f : String) (s : Snapshot) : Prop := s.ids = fileSymbolId f :: s.declaredIds

theorem OfFile.mem_ids_iff {f : String} {s : Snapshot} (h : s.OfFile f) {x : String} :
    x ∈ s.ids ↔ x = fileSymbolId f ∨ x ∈ s.declaredIds := by rw [h, List.mem_cons]

theorem ofFile_ofOutline (d : Document) {ids : List String}
    (hlen : ids.length = (Outline.ofText d.content).declarations.length) :
    (ofOutline d (Outline.ofText d.content) ids).OfFile d.fileId := by
  rw [OfFile, declaredIds, declaredIds_ofOutline d hlen]
  exact ids_ofOutline d hlen

end Snapshot

/-- With the ids `gone` having left the snapshots of a file, the snapshot `c`, the history's
baseline `b` and the changes recorded since the snapshot `first` fit together. -/
structure Accounted (f : String) (gone : List String) (first b c : Snapshot)
    (recorded : List Change) : Prop where
  baseline : b.OfFile f
  snapshot : c.OfFile f
  apart : ∀ x ∈ c.declaredIds, x ∉ gone
  kept : ∀ x ∈ b.declaredIds, x ∈ c.declaredIds ∨ x ∈ gone
  life : ∀ x, Phase x (x ∈ first.ids) (x ∈ b.ids) (x ∈ gone) (recorded.filter (·.symbolId = x))

namespace Accounted

variable {f : String} {gone : List String} {first b c c' : Snapshot} {recorded : List Change}

/-- The first snapshot. -/
theorem begin (hc : c.OfFile f) : Accounted f [] c c c [] := by
  refine ⟨hc, hc, by simp, fun x hx => Or.inl hx, fun x => ?_⟩
  by_cases hx : x ∈ c.ids
  · exact .alive hx (living_nil x _)
  · exact .unheard hx hx rfl

/-- Another snapshot, which the history has not seen yet. -/
theorem install (h : Accounted f gone first b c recorded) (hc' : c'.OfFile f)
    (hfresh : ∀ x ∈ c'.declaredIds, x ∈ c.declaredIds ∨ x ∉ gone) :
    Accounted f (gone ++ c.declaredIds.filter (· ∉ c'.declaredIds)) first b c' recorded := by
  refine ⟨h.baseline, hc', fun x hx hgone => ?_, fun x hx => ?_, fun x => ?_⟩
  · rcases List.mem_append.mp hgone with hgone | hgone
    · rcases hfresh x hx with hin | hout
      · exact h.apart x hin hgone
      · exact hout hgone
    · exact of_decide_eq_true (List.mem_filter.mp hgone).2 hx
  · by_cases hin : x ∈ c'.declaredIds
    · exact Or.inl hin
    · refine Or.inr (List.mem_append.mpr ?_)
      rcases h.kept x hx with hc | hgone
      · exact Or.inr (List.mem_filter.mpr ⟨hc, decide_eq_true hin⟩)
      · exact Or.inl hgone
  · exact (h.life x).mono fun hgone => List.mem_append_left _ hgone

/-- The history compares the snapshot with its baseline. -/
theorem record (h : Accounted f gone first b c recorded) :
    Accounted f gone first c c (recorded ++ b.changesTo c) := by
  refine ⟨h.snapshot, h.snapshot, h.apart, fun x hx => Or.inl hx, fun x => ?_⟩
  rw [List.filter_append]
  have hlife := h.life x
  rcases Snapshot.changesOf_cases b c x with ⟨hb, hc, hnone⟩ | ⟨hb, hc, name, hadded⟩ |
    ⟨hb, hc, name, hremoved⟩ | ⟨hb, hc, hrenamed⟩
  · rw [hnone, List.append_nil]
    cases hlife with
    | alive hk _ => exact absurd hk hb
    | unheard _ he hnil => exact .unheard hc he hnil
    | ended _ hg hended => exact .ended hc hg hended
  · -- an id that comes to be there was not there before, since it is not gone
    have hdeclared : x ∈ c.declaredIds := by
      refine (h.snapshot.mem_ids_iff.mp hc).resolve_left fun hfile => hb ?_
      exact h.baseline.mem_ids_iff.mpr (Or.inl hfile)
    rw [hadded]
    cases hlife with
    | alive hk _ => exact absurd hk hb
    | unheard _ he hnil =>
      rw [hnil, List.nil_append]
      exact .alive hc (living_added he name)
    | ended _ hg _ => exact absurd hg (h.apart x hdeclared)
  · -- an id that is there no more is gone, whether the snapshot before had it or not
    have hgone : x ∈ gone := by
      have hdeclared : x ∈ b.declaredIds := by
        refine (h.baseline.mem_ids_iff.mp hb).resolve_left fun hfile => hc ?_
        exact h.snapshot.mem_ids_iff.mpr (Or.inl hfile)
      refine (h.kept x hdeclared).resolve_left fun hin => hc ?_
      exact h.snapshot.mem_ids_iff.mpr (Or.inr hin)
    rw [hremoved]
    cases hlife with
    | alive _ hliving => exact .ended hc hgone (hliving.removed name)
    | unheard hk _ _ => exact absurd hb hk
    | ended hk _ _ => exact absurd hb hk
  · cases hlife with
    | alive _ hliving =>
      rcases hrenamed with hnone | ⟨old, new, hrenamed⟩
      · rw [hnone, List.append_nil]
        exact .alive hc hliving
      · rw [hrenamed]
        exact .alive hc (hliving.renamed old new)
    | unheard hk _ _ => exact absurd hb hk
    | ended hk _ _ => exact absurd hb hk

end Accounted

end SymbolAtlas
