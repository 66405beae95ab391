import SymbolAtlas.History.Change
import SymbolAtlas.Proofs.Entries

/-!
# The changes of one symbol

Of two snapshots one symbol can show at most one change (`Snapshot.changesOf_cases`): it is gone,
it is new, it goes by another name, or nothing is recorded of it.
-/

namespace SymbolAtlas

/-- The entry of a key, if it has one, is the only one with that key. -/
theorem Entries.filter_key {α : Type} {es : Entries String α} (hes : es.keys.Nodup) (k : String) :
    es.toList.filter (·.1 = k) = (es.get? k).toList.map (k, ·) := by
  obtain ⟨l, r, hget, -, -, hout⟩ := exists_split hes k
  have hl : l.filter (·.1 = k) = [] := List.filter_eq_nil_iff.mpr fun e he => by
    simpa using hout e (List.mem_append_left r he)
  have hr : r.filter (·.1 = k) = [] := List.filter_eq_nil_iff.mpr fun e he => by
    simpa using hout e (List.mem_append_right l he)
  rw [hget, List.filter_append, List.filter_append, hl, hr, List.append_nil, List.nil_append]
  exact List.filter_eq_self.mpr fun e he => by
    obtain ⟨v, -, rfl⟩ := List.mem_map.mp he
    simp

theorem Entries.get?_ofList_eq_none_iff {α : Type} (kvs : List (String × α)) (k : String) :
    (ofList kvs).get? k = none ↔ k ∉ kvs.map Prod.fst := by
  have hfold : ∀ es : Entries String α,
      (kvs.foldl (fun es e => es.put e.1 e.2) es).get? k = none ↔
        es.get? k = none ∧ k ∉ kvs.map Prod.fst := by
    induction kvs with
    | nil => simp
    | cons e kvs ih =>
      intro es
      rw [List.foldl_cons, ih, Entries.get?_put, List.map_cons, List.mem_cons, not_or]
      split_ifs with hk <;> simp [hk]
  simpa [ofList] using hfold empty

/-- A key that does not come again keeps its value. -/
theorem Entries.get?_ofList_cons {α : Type} {k : String} (v : α) {kvs : List (String × α)}
    (hk : k ∉ kvs.map Prod.fst) : (ofList ((k, v) :: kvs)).get? k = some v := by
  have hfold : ∀ es : Entries String α, es.get? k = some v →
      (kvs.foldl (fun es e => es.put e.1 e.2) es).get? k = some v := by
    induction kvs with
    | nil => exact fun es hes => hes
    | cons e kvs ih =>
      rw [List.map_cons, List.mem_cons, not_or] at hk
      refine fun es hes => ih hk.2 _ ?_
      rw [Entries.get?_put, if_neg hk.1, hes]
  exact hfold _ (by rw [Entries.get?_put, if_pos rfl])

/-- Changes that all are of the entries they come from can be picked out among the entries. -/
theorem filter_changes {α : Type} {change : String × α → Option Change}
    (hchange : ∀ e c, change e = some c → c.symbolId = e.1) (es : List (String × α)) (x : String) :
    (es.filterMap change).filter (·.symbolId = x) = (es.filter (·.1 = x)).filterMap change := by
  rw [List.filter_filterMap, List.filterMap_filter]
  refine List.filterMap_congr fun e _ => ?_
  cases hc : change e with
  | none => simp
  | some c => simp [hchange e c hc, Option.filter_some]

/-- What changes for one id, given its names before and after. -/
def changeOf (x : String) : Option String → Option String → List Change
  | none, none => []
  | none, some name => [.added x name]
  | some name, none => [.removed x name]
  | some old, some new => if old = new then [] else [.renamed x old new]

theorem filter_changesBetween {before after : Entries String String} (hb : before.keys.Nodup)
    (ha : after.keys.Nodup) (x : String) :
    (changesBetween before after).filter (·.symbolId = x) =
      changeOf x (before.get? x) (after.get? x) := by
  rw [changesBetween, List.filter_append, filter_changes, filter_changes, Entries.filter_key hb,
    Entries.filter_key ha]
  · cases hbx : before.get? x with
    | none => cases hax : after.get? x <;> simp [changeOf, hbx]
    | some old =>
      cases hax : after.get? x with
      | none => simp [changeOf, Entries.has, hax]
      | some new =>
        by_cases hname : old = new <;> simp [changeOf, Entries.has, hax, hbx, hname]
  · intro e c hc
    split at hc
    · rw [← Option.some.inj hc]
      rfl
    · split_ifs at hc
      rw [← Option.some.inj hc]
      rfl
  · intro e c hc
    split_ifs at hc
    rw [← Option.some.inj hc]
    rfl

namespace Snapshot

/-- The ids of all symbols of a snapshot. -/
def ids (s : Snapshot) : List String := s.symbols.map Symbol.id

theorem get?_names_eq_none_iff (s : Snapshot) (x : String) :
    s.names.get? x = none ↔ x ∉ s.ids := by
  rw [names, Entries.get?_ofList_eq_none_iff, List.map_map]
  rfl

theorem nodup_keys_names (s : Snapshot) : s.names.keys.Nodup := Entries.nodup_keys_ofList _

/-- A name that is listed is the one that is looked up. -/
theorem get?_names_of_mem {s : Snapshot} {e : String × String} (he : e ∈ s.names.toList) :
    s.names.get? e.1 = some e.2 := Entries.get?_of_mem s.nodup_keys_names he

/-- **One symbol shows at most one change**, which tells where it is to be found. -/
theorem changesOf_cases (b n : Snapshot) (x : String) :
    let changes := (b.changesTo n).filter (·.symbolId = x)
    (x ∉ b.ids ∧ x ∉ n.ids ∧ changes = []) ∨
      (x ∉ b.ids ∧ x ∈ n.ids ∧ ∃ name, changes = [.added x name]) ∨
      (x ∈ b.ids ∧ x ∉ n.ids ∧ ∃ name, changes = [.removed x name]) ∨
      (x ∈ b.ids ∧ x ∈ n.ids ∧ (changes = [] ∨ ∃ old new, changes = [.renamed x old new])) := by
  have hb := b.get?_names_eq_none_iff x
  have hn := n.get?_names_eq_none_iff x
  rw [changesTo, filter_changesBetween b.nodup_keys_names n.nodup_keys_names]
  dsimp only
  cases hbx : b.names.get? x with
  | none =>
    rw [hbx] at hb
    cases hnx : n.names.get? x with
    | none =>
      rw [hnx] at hn
      exact Or.inl ⟨hb.mp rfl, hn.mp rfl, rfl⟩
    | some name =>
      have hin : x ∈ n.ids := by_contra fun hout => by simp [hn.mpr hout] at hnx
      exact Or.inr (Or.inl ⟨hb.mp rfl, hin, name, rfl⟩)
  | some old =>
    have hin : x ∈ b.ids := by_contra fun hout => by simp [hb.mpr hout] at hbx
    cases hnx : n.names.get? x with
    | none =>
      rw [hnx] at hn
      exact Or.inr (Or.inr (Or.inl ⟨hin, hn.mp rfl, old, rfl⟩))
    | some new =>
      have hin' : x ∈ n.ids := by_contra fun hout => by simp [hn.mpr hout] at hnx
      refine Or.inr (Or.inr (Or.inr ⟨hin, hin', ?_⟩))
      rw [changeOf]
      split_ifs
      · exact Or.inl rfl
      · exact Or.inr ⟨old, new, rfl⟩

end Snapshot
end SymbolAtlas
