import Mathlib.Data.List.Nodup
import SymbolAtlas.Proofs.Recording

/-!
# One log for all files

A history keeps the events of each file apart, and numbers them over all files.  Taken together and
put in order they are one log (`History.log`).  `History.Holds h log` says the same from the other
side: the events are those of a list that is numbered from 1 on, and each file has those that bear
its id.  What the history does besides recording leaves the list as it is, and recording adds to its
end (`Holds.add`), so the list tells in which order events were recorded.

The events of a symbol are looked up in all files at once.  They come out as the log has them
(`Holds.eventsOfSymbol_eq`).
-/

namespace SymbolAtlas
namespace History

/-- All events, by number. -/
def log (h : History) : List Event :=
  (h.files.values.flatMap FileHistory.events).mergeSort fun a b => a.number ≤ b.number

/-- The events of a history are those of a list, which is numbered from 1 on. -/
structure Holds (h : History) (log : List Event) : Prop where
  keys : h.files.keys.Nodup
  numbers : log.map Event.number = List.range' 1 h.recorded
  events : ∀ f, h.eventsOf f = log.filter (·.fileId = f)

theorem holds_empty : empty.Holds [] :=
  ⟨List.nodup_nil, rfl, fun _ => rfl⟩

/-! ### Reading -/

section Reading

variable {h : History} {log : List Event}

/-- The log is numbered upwards. -/
theorem Holds.ascending (hl : h.Holds log) : (log.map Event.number).Pairwise (· < ·) := by
  rw [hl.numbers]
  exact List.pairwise_lt_range'

/-- So are the events of each file. -/
theorem Holds.ascending_eventsOf (hl : h.Holds log) (f : String) :
    ((h.eventsOf f).map Event.number).Pairwise (· < ·) := by
  rw [hl.events]
  exact hl.ascending.sublist (List.filter_sublist.map _)

/-- No event is there twice. -/
theorem Holds.nodup (hl : h.Holds log) : log.Nodup := by
  refine List.Nodup.of_map Event.number ?_
  rw [hl.numbers]
  exact List.nodup_range'

/-- Each event is with its file. -/
theorem Holds.mem_eventsOf (hl : h.Holds log) {e : Event} (he : e ∈ log) :
    e ∈ h.eventsOf e.fileId := by
  rw [hl.events]
  exact List.mem_filter.mpr ⟨he, decide_eq_true rfl⟩

theorem Holds.eq_nil (hl : h.Holds log) (hnone : ∀ f, h.eventsOf f = []) : log = [] := by
  refine List.eq_nil_iff_forall_not_mem.mpr fun e he => ?_
  have hin := hl.mem_eventsOf he
  rw [hnone] at hin
  cases hin

theorem eventsOf_of_mem {f : String} {x : FileHistory} (hkeys : h.files.keys.Nodup)
    (hx : (f, x) ∈ h.files.toList) : h.eventsOf f = x.events := by
  rw [eventsOf, ofFile, Entries.get?_of_mem hkeys hx]
  rfl

/-- The files together have the events of the log. -/
theorem Holds.perm (hl : h.Holds log) :
    (h.files.values.flatMap FileHistory.events).Perm log := by
  have hown : ∀ e ∈ h.files.toList, e.2.events = log.filter (·.fileId = e.1) := by
    intro e he
    rw [← hl.events, eventsOf_of_mem hl.keys he]
  rw [Entries.values, List.flatMap_map]
  refine (List.perm_ext_iff_of_nodup ?_ hl.nodup).mpr fun e => ?_
  · refine List.nodup_flatMap.mpr ⟨fun x hx => ?_, ?_⟩
    · rw [hown x hx]
      exact hl.nodup.filter _
    · -- an event bears the id of one file
      refine (List.pairwise_map.mp hl.keys).imp_of_mem fun {x y} hx hy hxy e he he' => hxy ?_
      have hbears : ∀ z ∈ h.files.toList, e ∈ z.2.events → e.fileId = z.1 := by
        intro z hz hez
        rw [hown z hz] at hez
        simpa using (List.mem_filter.mp hez).2
      exact (hbears x hx he).symm.trans (hbears y hy he')
  · rw [List.mem_flatMap]
    constructor
    · rintro ⟨x, hx, he⟩
      rw [hown x hx] at he
      exact (List.mem_filter.mp he).1
    · intro he
      have hfile := hl.mem_eventsOf he
      unfold eventsOf ofFile at hfile
      cases hx : h.files.get? e.fileId with
      | none => simp [hx] at hfile
      | some x =>
        rw [hx] at hfile
        obtain ⟨l, r, htoList, -⟩ := List.lookup_eq_some_iff.mp hx
        exact ⟨(e.fileId, x), by simp [htoList], hfile⟩

/-- Events that are numbered in their order are what comes out if they are sorted. -/
theorem mergeSort_eq {l l' : List Event} (hperm : l.Perm l')
    (hl' : (l'.map Event.number).Pairwise (· < ·)) :
    l.mergeSort (fun a b => a.number ≤ b.number) = l' := by
  have hlt : l'.Pairwise fun a b => a.number < b.number := List.pairwise_map.mp hl'
  have hsorted : l'.Pairwise fun a b => decide (a.number ≤ b.number) = true :=
    hlt.imp fun hab => decide_eq_true (Nat.le_of_lt hab)
  have hinj : ∀ a ∈ l', ∀ b ∈ l', a.number = b.number → a = b :=
    fun a ha b hb => List.inj_on_of_nodup_map (hl'.imp Nat.ne_of_lt) ha hb
  have hmerge := List.mergeSort_perm l fun a b => decide (a.number ≤ b.number)
  refine List.Perm.eq_of_pairwise (fun a b ha hb hab hba => ?_)
    (List.pairwise_mergeSort (fun a b c hab hbc => ?_) (fun a b => ?_) l) hsorted
    (hmerge.trans hperm)
  · have ha' := (hmerge.trans hperm).mem_iff.mp ha
    exact hinj a ha' b hb (Nat.le_antisymm (of_decide_eq_true hab) (of_decide_eq_true hba))
  · exact decide_eq_true (Nat.le_trans (of_decide_eq_true hab) (of_decide_eq_true hbc))
  · rcases Nat.le_total a.number b.number with hle | hle <;> simp [hle]

/-- The log that is put together is the one that was kept. -/
theorem Holds.log_eq (hl : h.Holds log) : h.log = log := mergeSort_eq hl.perm hl.ascending

/-- **The events of a symbol**, over all files, are those of the log in the same order. -/
theorem Holds.eventsOfSymbol_eq (hl : h.Holds log) (x : String) :
    h.eventsOfSymbol x = log.filter (·.change.symbolId = x) :=
  mergeSort_eq (hl.perm.filter _) (hl.ascending.sublist (List.filter_sublist.map _))

end Reading

/-! ### Writing -/

section Writing

variable {h : History} {log : List Event}

/-- The log is a matter of the events alone. -/
theorem Holds.of_eventsOf {h' : History} (hl : h.Holds log) (hkeys : h'.files.keys.Nodup)
    (hrecorded : h'.recorded = h.recorded) (hevents : ∀ f, h'.eventsOf f = h.eventsOf f) :
    h'.Holds log :=
  ⟨hkeys, by rw [hrecorded, hl.numbers], fun f => by rw [hevents, hl.events]⟩

theorem Holds.know (hl : h.Holds log) (f : String) : (h.know f).Holds log := by
  refine hl.of_eventsOf ?_ ?_ fun g => by rw [eventsOf, ofFile_know, eventsOf]
  · unfold History.know
    split_ifs
    · exact hl.keys
    · exact Entries.nodup_keys_put hl.keys _ _
  · unfold History.know
    split_ifs <;> rfl

/-- Baselines have nothing to do with it. -/
theorem Holds.setBaseline (hl : h.Holds log) (f : String) (baseline : Option Snapshot) :
    (h.setBaseline f baseline).Holds log := by
  refine hl.of_eventsOf (Entries.nodup_keys_put hl.keys _ _) rfl fun g => ?_
  rw [eventsOf, ofFile_setBaseline, eventsOf]
  split_ifs <;> rfl

theorem Holds.forgetBaseline (hl : h.Holds log) (f : String) :
    (h.forgetBaseline f).Holds log := by
  unfold History.forgetBaseline
  split_ifs
  · exact hl.setBaseline f none
  · exact hl

/-- **Recording adds to the end.** -/
theorem Holds.add (hl : h.Holds log) (f : String) (version : Int) (c : Change) :
    (h.add (h.nextEvent f version c)).Holds (log ++ [h.nextEvent f version c]) := by
  refine ⟨Entries.nodup_keys_put hl.keys _ _, ?_, fun g => ?_⟩
  · have hrecorded : (h.add (h.nextEvent f version c)).recorded = h.recorded + 1 := rfl
    rw [hrecorded, List.range'_concat, List.map_append, hl.numbers, Nat.one_mul, Nat.add_comm 1]
    rfl
  · have hfile : (h.nextEvent f version c).fileId = f := rfl
    have hevents := congrArg FileHistory.events (ofFile_add h (h.nextEvent f version c) g)
    rw [List.filter_append, ← hl.events, eventsOf, hevents, hfile]
    by_cases hg : g = f
    · simp [hg, hfile, eventsOf]
    · simp [hg, hfile, eventsOf, Ne.symm hg]

end Writing

/-! ### All at once -/

/-- The events of a history are one log: numbered from 1 on without a gap, in ascending order in
each file, and with the events of each symbol as they stand in it, which are those of one file. -/
structure Sequential (h : History) : Prop where
  numbers : h.log.map Event.number = List.range' 1 h.recorded
  files : ∀ f, h.eventsOf f = h.log.filter (·.fileId = f)
  ascending : ∀ f, ((h.eventsOf f).map Event.number).Pairwise (· < ·)
  symbols : ∀ x, h.eventsOfSymbol x = h.log.filter (·.change.symbolId = x)
  oneFile : ∀ x, ∀ e ∈ h.eventsOfSymbol x, ∀ e' ∈ h.eventsOfSymbol x, e.fileId = e'.fileId

/-- **Events are numbered one after the other, and tell of their own file.** -/
theorem Holds.sequential {h : History} {log : List Event} (hl : h.Holds log)
    (hids : ∀ e ∈ log, IsIdOf e.fileId e.change.symbolId) : h.Sequential := by
  refine ⟨?_, fun f => ?_, hl.ascending_eventsOf, fun x => ?_, fun x e he e' he' => ?_⟩
  · rw [hl.log_eq, hl.numbers]
  · rw [hl.log_eq, hl.events]
  · rw [hl.log_eq, hl.eventsOfSymbol_eq]
  · rw [hl.eventsOfSymbol_eq, List.mem_filter, decide_eq_true_iff] at he he'
    have hid := hids e he.1
    rw [he.2, ← he'.2] at hid
    exact hid.unique (hids e' he'.1)

end History
end SymbolAtlas
