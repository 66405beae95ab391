import Mathlib.Data.List.Induction
import Mathlib.Data.List.Perm.Subperm
import SymbolAtlas.Proofs.Replay

/-!
# The changes between two snapshots are a patch

A snapshot gives each of its ids a name, and may list an id more than once: the first place and the
last name count (`Snapshot.keys_names`, `Snapshot.get?_names`).  The changes from one snapshot to
another are read here as a patch of these names (`Snapshot.changesTo_minimal_patch`).  Since the
changes of one id are `changeOf` its two names (`Snapshot.filter_changesTo`), most of what there is
to say about the whole list is said id by id.
-/

namespace SymbolAtlas

/-! ### Places and names of repeated keys -/

namespace Entries

variable {κ α : Type} [DecidableEq κ]

theorem ofList_concat (kvs : List (κ × α)) (e : κ × α) :
    ofList (kvs ++ [e]) = (ofList kvs).put e.1 e.2 := by
  rw [ofList, List.foldl_append]
  rfl

theorem keys_put (es : Entries κ α) (k : κ) (v : α) :
    (es.put k v).keys = if k ∈ es.keys then es.keys else es.keys ++ [k] := by
  split_ifs with hk
  · rcases es with ⟨es⟩
    simp only [keys, put] at hk ⊢
    induction es with
    | nil => simp at hk
    | cons e es ih =>
      rw [putIn]
      split_ifs with he
      · rw [List.map_cons, List.map_cons, he]
      · rw [List.map_cons, List.map_cons, ih ((List.mem_cons.mp hk).resolve_left (Ne.symm he))]
  · rw [keys, toList_put_of_notMem hk, List.map_append]
    rfl

/-- A key stands where it was first put in. -/
theorem keys_ofList (kvs : List (κ × α)) : (ofList kvs).keys = (kvs.map Prod.fst).eraseDups := by
  induction kvs using List.reverseRecOn with
  | nil => rfl
  | append_singleton kvs e ih =>
    have hmem : e.1 ∈ (ofList kvs).keys ↔ e.1 ∈ kvs.map Prod.fst := by rw [ih, List.mem_eraseDups]
    rw [ofList_concat, keys_put, List.map_append, List.eraseDups_append, ← ih]
    by_cases he : e.1 ∈ kvs.map Prod.fst
    · rw [if_pos (hmem.mpr he)]
      simp [List.removeAll, he]
    · rw [if_neg (mt hmem.mp he), List.map_singleton, List.removeAll,
        List.filter_cons_of_pos (by simpa using he)]
      rfl

/-- A key has the value that it was given last. -/
theorem get?_ofList (kvs : List (κ × α)) (k : κ) :
    (ofList kvs).get? k = (kvs.reverse.find? (·.1 = k)).map Prod.snd := by
  induction kvs using List.reverseRecOn with
  | nil => rfl
  | append_singleton kvs e ih =>
    rw [ofList_concat, get?_put, List.reverse_append, List.reverse_singleton,
      List.singleton_append]
    by_cases hk : e.1 = k
    · rw [if_pos hk.symm, List.find?_cons_of_pos (by simpa using hk), Option.map_some]
    · rw [if_neg (Ne.symm hk), List.find?_cons_of_neg (by simpa using hk), ih]

end Entries

namespace Snapshot

/-- The name of the last symbol with an id. -/
def lastName? (s : Snapshot) (id : String) : Option String :=
  (s.symbols.reverse.find? (·.id = id)).map Symbol.name

/-- Each id is listed once. -/
theorem keys_names (s : Snapshot) : s.names.keys = s.ids.eraseDups := by
  rw [names, Entries.keys_ofList, List.map_map]
  rfl

theorem get?_names (s : Snapshot) (x : String) : s.names.get? x = s.lastName? x := by
  rw [names, Entries.get?_ofList, ← List.map_reverse, List.find?_map, Option.map_map]
  rfl

theorem get?_names_eq (s : Snapshot) : s.names.get? = s.lastName? := funext s.get?_names

end Snapshot

/-! ### Changes id by id -/

namespace Change

/-- The change that takes a change back. -/
def reversed : Change → Change
  | .removed id name => .added id name
  | .added id name => .removed id name
  | .renamed id before after => .renamed id after before

/-- The kind of a change and the id it is about. -/
def heading (c : Change) : String × String := (c.label, c.symbolId)

@[simp] theorem symbolId_reversed (c : Change) : c.reversed.symbolId = c.symbolId := by
  cases c <;> rfl

@[simp] theorem reversed_reversed (c : Change) : c.reversed.reversed = c := by cases c <;> rfl

end Change

theorem map_reversed_changeOf (x : String) (old new : Option String) :
    (changeOf x old new).map Change.reversed = changeOf x new old := by
  cases old with
  | none => cases new <;> rfl
  | some old =>
    cases new with
    | none => rfl
    | some new =>
      by_cases h : old = new
      · simp [changeOf, h]
      · simp [changeOf, h, Ne.symm h, Change.reversed]

namespace Snapshot

theorem nodup_changesTo (p n : Snapshot) : ((p.changesTo n).map Change.symbolId).Nodup := by
  refine List.nodup_iff_count_le_one.mpr fun x => ?_
  have hcount : ((p.changesTo n).map Change.symbolId).count x =
      ((p.changesTo n).filter (·.symbolId = x)).length := by
    rw [List.count, List.countP_map, List.countP_eq_length_filter]
    rfl
  rw [hcount, filter_changesTo]
  exact Names.length_changeOf ..

/-- How a symbol changes depends on its own two names. -/
theorem mem_changesTo_iff {p n : Snapshot} {c : Change} :
    c ∈ p.changesTo n ↔
      c ∈ changeOf c.symbolId (p.names.get? c.symbolId) (n.names.get? c.symbolId) := by
  rw [← filter_changesTo, List.mem_filter]
  simp

/-- An id is mentioned exactly when its two names differ. -/
theorem mem_map_symbolId_iff {p n : Snapshot} {x : String} :
    x ∈ (p.changesTo n).map Change.symbolId ↔ p.names.get? x ≠ n.names.get? x := by
  have hmentioned : x ∈ (p.changesTo n).map Change.symbolId ↔
      (p.changesTo n).filter (·.symbolId = x) ≠ [] := by
    simp [List.mem_map]
  rw [hmentioned, filter_changesTo]
  refine not_congr ⟨Names.eq_of_changeOf_eq_nil, fun h => ?_⟩
  rw [h, Names.changeOf_self]

/-- The way back lists the changes taken back, in an order of its own. -/
theorem changesTo_perm_reversed (p n : Snapshot) :
    (n.changesTo p).Perm ((p.changesTo n).map Change.reversed) := by
  have hback : (((p.changesTo n).map Change.reversed).map Change.symbolId).Nodup := by
    rw [List.map_map, show Change.symbolId ∘ Change.reversed = Change.symbolId from
      funext Change.symbolId_reversed]
    exact p.nodup_changesTo n
  refine (List.perm_ext_iff_of_nodup (n.nodup_changesTo p).of_map hback.of_map).mpr fun c => ?_
  have hmem : c ∈ (p.changesTo n).map Change.reversed ↔ c.reversed ∈ p.changesTo n := by
    refine ⟨fun h => ?_, fun h => List.mem_map.mpr ⟨c.reversed, h, c.reversed_reversed⟩⟩
    obtain ⟨c', hc', rfl⟩ := List.mem_map.mp h
    rwa [Change.reversed_reversed]
  rw [hmem, mem_changesTo_iff, mem_changesTo_iff, Change.symbolId_reversed,
    ← map_reversed_changeOf c.symbolId (p.names.get? c.symbolId)]
  refine ⟨fun h => ?_, fun h => List.mem_map.mpr ⟨c.reversed, h, c.reversed_reversed⟩⟩
  obtain ⟨c', hc', rfl⟩ := List.mem_map.mp h
  rwa [Change.reversed_reversed]

/-! ### The list as a whole -/

/-- The removals, by kind and id, follow the earlier snapshot, and what comes after them the later
one. -/
theorem headings_changesTo (p n : Snapshot) :
    (p.changesTo n).map Change.heading =
      (p.ids.eraseDups.filter (· ∉ n.ids)).map (("symbol_removed", ·)) ++
        n.ids.eraseDups.filterMap fun x =>
          if x ∉ p.ids then some ("symbol_added", x)
          else if p.lastName? x ≠ n.lastName? x then some ("symbol_changed", x) else none := by
  have hhas : ∀ (s : Snapshot) (x : String), s.names.has x = decide (x ∈ s.ids) := fun s x => by
    rw [Entries.has, Bool.eq_iff_iff, Option.isSome_iff_ne_none, ne_eq,
      get?_names_eq_none_iff, not_not, decide_eq_true_eq]
  rw [changesTo, changesBetween, List.map_append, List.map_filterMap, List.map_filterMap,
    ← keys_names, ← keys_names, ← List.filterMap_eq_map, ← List.filterMap_eq_filter,
    List.filterMap_filterMap]
  simp only [Entries.keys, List.filterMap_map]
  congr 1
  · refine List.filterMap_congr fun e _ => ?_
    by_cases he : e.1 ∈ n.ids <;>
      simp [hhas, he, Option.guard, Change.heading, Change.label, Change.symbolId]
  · refine List.filterMap_congr fun e he => ?_
    have hnew : n.lastName? e.1 = some e.2 := by rw [← get?_names, get?_names_of_mem he]
    have hold := p.get?_names_eq_none_iff e.1
    rw [Function.comp_apply, hnew, ← get?_names]
    cases hname : p.names.get? e.1 with
    | none => simp [hold.mp hname, Change.heading, Change.label, Change.symbolId]
    | some name =>
      have hin : e.1 ∈ p.ids := by_contra fun hout => by simp [hold.mpr hout] at hname
      by_cases hsame : name = e.2 <;>
        simp [hin, hsame, Change.heading, Change.label, Change.symbolId]

end Snapshot

/-- Replaying changes leaves the ids alone that they do not mention. -/
theorem Names.eq_of_replay {names goal : Names} {cs : List Change} {x : String}
    (h : names.replay cs = some goal) (hx : x ∉ cs.map Change.symbolId) : goal x = names x := by
  induction cs generalizing names with
  | nil => rw [← Option.some.inj h]
  | cons c cs ih =>
    rw [List.map_cons, List.mem_cons, not_or] at hx
    rw [replay, List.foldlM_cons, Option.bind_eq_bind, Option.bind_eq_some_iff] at h
    obtain ⟨next, hnext, hrest⟩ := h
    have hkept : next x = names x := by
      unfold after? at hnext
      split at hnext
      · split_ifs at hnext
        obtain ⟨new, -, rfl⟩ := Option.map_eq_some_iff.mp hnext
        exact Function.update_of_ne hx.1 ..
      · split_ifs at hnext
        · rw [← Option.some.inj hnext]
          exact Function.update_of_ne hx.1 ..
        · obtain ⟨new, -, rfl⟩ := Option.map_eq_some_iff.mp hnext
          exact Function.update_of_ne hx.1 ..
    rw [ih hrest hx.2, hkept]

namespace Snapshot

/-- **The changes between two snapshots are a minimal, ordered patch.**  They mention each id at
most once: first the ids that are gone, in the order of the earlier snapshot, then the new and the
renamed ones in the order of the later one.  Replayed on the names of the one snapshot they give the
names of the other; there are none exactly if the names are the same; the way back consists of the
same changes reversed; and no other list of changes gets along without one of the ids. -/
theorem changesTo_minimal_patch (p n : Snapshot) :
    let changes := p.changesTo n
    (changes.map Change.symbolId).Nodup ∧
      changes.map Change.heading =
        (p.ids.eraseDups.filter (· ∉ n.ids)).map (("symbol_removed", ·)) ++
          (n.ids.eraseDups.filterMap fun x =>
            if x ∉ p.ids then some ("symbol_added", x)
            else if p.lastName? x ≠ n.lastName? x then some ("symbol_changed", x) else none) ∧
      Names.replay p.lastName? changes = some n.lastName? ∧
      (changes = [] ↔ p.lastName? = n.lastName?) ∧
      (n.changesTo p).Perm (changes.map Change.reversed) ∧
      ∀ others, Names.replay p.lastName? others = some n.lastName? →
        changes.map Change.symbolId ⊆ others.map Change.symbolId ∧
          changes.length ≤ others.length := by
  intro changes
  have hreplay := p.replay_changesTo n
  rw [get?_names_eq, get?_names_eq] at hreplay
  have hneeded : ∀ others, Names.replay p.lastName? others = some n.lastName? →
      changes.map Change.symbolId ⊆ others.map Change.symbolId := fun others hothers x hx => by
    refine by_contra fun hout => mem_map_symbolId_iff.mp hx ?_
    rw [get?_names, get?_names, Names.eq_of_replay hothers hout]
  refine ⟨p.nodup_changesTo n, p.headings_changesTo n, hreplay, ⟨fun h => ?_, fun h => ?_⟩,
    p.changesTo_perm_reversed n, fun others hothers => ⟨hneeded others hothers, ?_⟩⟩
  · have hnone : changes = [] := h
    rw [show p.changesTo n = [] from hnone] at hreplay
    exact Option.some.inj hreplay
  · refine List.eq_nil_iff_forall_not_mem.mpr fun c hc => ?_
    exact mem_map_symbolId_iff.mp (List.mem_map_of_mem hc) (by rw [get?_names, get?_names, h])
  · have hlength := ((p.nodup_changesTo n).subperm (hneeded others hothers)).length_le
    rwa [List.length_map, List.length_map] at hlength

end Snapshot
end SymbolAtlas
