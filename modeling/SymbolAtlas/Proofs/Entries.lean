import Mathlib.Data.List.Nodup
import SymbolAtlas.Entries

/-!
# Reading entries back

Writing to a key changes what is read at that key alone (`get?_put`, `get?_erase`), and no key
comes to be there twice (`nodup_keys_put`, `nodup_keys_erase`).  Where the order of the entries
counts, `exists_split` cuts them at a key: writing puts the new value between the two halves, and
erasing leaves the halves.  Moving a key to the end is erasing it and adding it
(`get?_putLast`, `nodup_keys_putLast`).
-/

namespace SymbolAtlas
namespace Entries

variable {κ α : Type} [DecidableEq κ]

@[simp] theorem get?_empty (k : κ) : (empty : Entries κ α).get? k = none := rfl

@[simp] theorem get?_emptyCollection (k : κ) : ({} : Entries κ α).get? k = none := rfl

theorem lookup_cons_of_ne {k k' : κ} (v : α) (es : List (κ × α)) (h : k' ≠ k) :
    ((k, v) :: es).lookup k' = es.lookup k' := by
  rw [List.lookup_cons, beq_eq_false_iff_ne.mpr h]

theorem lookup_putIn (k k' : κ) (v : α) (es : List (κ × α)) :
    (putIn k v es).lookup k' = if k' = k then some v else es.lookup k' := by
  induction es with
  | nil =>
    by_cases h : k' = k
    · simp [putIn, h]
    · rw [putIn, lookup_cons_of_ne v [] h, if_neg h]
  | cons e es ih =>
    rcases e with ⟨k₀, v₀⟩
    by_cases h₀ : k₀ = k
    · subst h₀
      by_cases h : k' = k₀
      · simp [putIn, h]
      · simp [putIn, lookup_cons_of_ne _ _ h, h]
    · by_cases h : k' = k₀
      · simp [putIn, h₀, h]
      · simp [putIn, h₀, lookup_cons_of_ne _ _ h, ih]

/-- Writing to a key is read back there and nowhere else. -/
theorem get?_put (es : Entries κ α) (k k' : κ) (v : α) :
    (es.put k v).get? k' = if k' = k then some v else es.get? k' :=
  lookup_putIn k k' v es.toList

/-- Writing what is there already changes nothing. -/
theorem put_of_get? {es : Entries κ α} {k : κ} {v : α} (h : es.get? k = some v) :
    es.put k v = es := by
  rcases es with ⟨es⟩
  unfold put
  congr 1
  induction es with
  | nil => cases h
  | cons e es ih =>
    rcases e with ⟨k₀, v₀⟩
    by_cases h₀ : k₀ = k
    · subst h₀
      obtain rfl : v₀ = v := by simpa [get?] using h
      simp [putIn]
    · have hrest : (⟨es⟩ : Entries κ α).get? k = some v :=
        (lookup_cons_of_ne v₀ es (Ne.symm h₀)).symm.trans h
      simp [putIn, h₀, ih hrest]

/-- Erasing a key leaves what is read at the others. -/
theorem get?_erase (es : Entries κ α) (k k' : κ) :
    (es.erase k).get? k' = if k' = k then none else es.get? k' := by
  rcases es with ⟨es⟩
  simp only [get?, erase]
  induction es with
  | nil => simp
  | cons e es ih =>
    rcases e with ⟨k₀, v₀⟩
    by_cases h₀ : k₀ = k
    · rw [List.filter_cons_of_neg (by simp [h₀]), ih]
      by_cases h : k' = k
      · simp [h]
      · rw [if_neg h, if_neg h, lookup_cons_of_ne v₀ es (h₀ ▸ h)]
    · rw [List.filter_cons_of_pos (by simp [h₀])]
      by_cases h : k' = k₀
      · simp [h, h₀]
      · rw [lookup_cons_of_ne v₀ _ h, lookup_cons_of_ne v₀ _ h, ih]

/-- A key is read exactly when it is among the keys. -/
theorem get?_eq_none_iff {es : Entries κ α} {k : κ} : es.get? k = none ↔ k ∉ es.keys := by
  simp only [get?, keys, List.lookup_eq_none_iff, List.mem_map, not_exists, not_and, bne_iff_ne]
  exact ⟨fun h e he hk => h e he hk.symm, fun h e he hk => h e he hk.symm⟩

/-- With keys that are all different, an entry is what its key reads. -/
theorem get?_of_mem {es : Entries κ α} (hes : es.keys.Nodup) {k : κ} {v : α}
    (h : (k, v) ∈ es.toList) : es.get? k = some v := by
  rcases es with ⟨es⟩
  induction es with
  | nil => simp at h
  | cons e es ih =>
    rcases e with ⟨k₀, v₀⟩
    obtain ⟨hk₀, hes'⟩ := List.nodup_cons.mp hes
    rcases List.mem_cons.mp h with h | h
    · simp only [Prod.mk.injEq] at h
      simp [get?, h.1, h.2]
    · have hne : k ≠ k₀ := fun hk => hk₀ (List.mem_map.mpr ⟨(k, v), h, hk⟩)
      exact (lookup_cons_of_ne v₀ es hne).trans (ih hes' h)

/-- **Entries cut at a key.**  What stands at the key, if anything, lies between two halves in
which the key does not occur; writing replaces it and erasing removes it. -/
theorem exists_split {es : Entries κ α} (hes : es.keys.Nodup) (k : κ) :
    ∃ l r, es.toList = l ++ (es.get? k).toList.map (k, ·) ++ r ∧
      (∀ v, (es.put k v).toList = l ++ (k, v) :: r) ∧ (es.erase k).toList = l ++ r ∧
      ∀ e ∈ l ++ r, e.1 ≠ k := by
  rcases es with ⟨es⟩
  induction es with
  | nil => exact ⟨[], [], by simp [get?, put, putIn, erase]⟩
  | cons e es ih =>
    rcases e with ⟨k₀, v₀⟩
    obtain ⟨hk₀, hes'⟩ := List.nodup_cons.mp hes
    by_cases h₀ : k₀ = k
    · subst h₀
      have hout : ∀ e ∈ es, e.1 ≠ k₀ := fun e he hk => hk₀ (List.mem_map.mpr ⟨e, he, hk⟩)
      refine ⟨[], es, by simp [get?], fun v => by simp [put, putIn], ?_, by simpa using hout⟩
      simpa [erase, List.filter_eq_self] using hout
    · obtain ⟨l, r, hget, hput, herase, hout⟩ := ih hes'
      refine ⟨(k₀, v₀) :: l, r, ?_, fun v => ?_, ?_, ?_⟩
      · simp only [get?, lookup_cons_of_ne v₀ es (Ne.symm h₀)] at hget ⊢
        rw [List.cons_append, List.cons_append, ← hget]
      · simpa [put, putIn, h₀] using hput v
      · simpa [erase, h₀] using herase
      · intro e he
        rcases List.mem_cons.mp he with rfl | he
        · exact h₀
        · exact hout e he

theorem nodup_keys_erase {es : Entries κ α} (hes : es.keys.Nodup) (k : κ) :
    (es.erase k).keys.Nodup :=
  hes.sublist ((List.filter_sublist).map Prod.fst)

theorem nodup_keys_put {es : Entries κ α} (hes : es.keys.Nodup) (k : κ) (v : α) :
    (es.put k v).keys.Nodup := by
  obtain ⟨l, r, -, hput, herase, hout⟩ := exists_split hes k
  have hlr := nodup_keys_erase hes k
  simp only [keys, hput, herase, List.map_append, List.map_cons] at hlr ⊢
  rw [List.nodup_middle, List.nodup_cons]
  refine ⟨fun hk => ?_, hlr⟩
  rw [← List.map_append] at hk
  obtain ⟨e, he, hek⟩ := List.mem_map.mp hk
  exact hout e he hek

/-- A key that is moved to the end reads its new value, and the others what they did. -/
theorem get?_putLast (es : Entries κ α) (k k' : κ) (v : α) :
    (es.putLast k v).get? k' = if k' = k then some v else es.get? k' := by
  have herase := get?_erase es k k'
  simp only [get?] at herase
  rw [get?, putLast, List.lookup_append, herase]
  by_cases h : k' = k
  · simp [h]
  · rw [if_neg h, lookup_cons_of_ne v [] h]
    simp [h, get?]

theorem keys_putLast (es : Entries κ α) (k : κ) (v : α) :
    (es.putLast k v).keys = (es.erase k).keys ++ [k] := by
  rw [keys, putLast, List.map_append]
  rfl

theorem nodup_keys_putLast {es : Entries κ α} (hes : es.keys.Nodup) (k : κ) (v : α) :
    (es.putLast k v).keys.Nodup := by
  rw [keys_putLast, ← List.concat_eq_append]
  refine (nodup_keys_erase hes k).concat ?_
  rw [← get?_eq_none_iff, get?_erase, if_pos rfl]

theorem nodup_keys_ofList (kvs : List (κ × α)) : (ofList kvs).keys.Nodup := by
  have h : ∀ (kvs : List (κ × α)) (es : Entries κ α), es.keys.Nodup →
      (kvs.foldl (fun es e => es.put e.1 e.2) es).keys.Nodup := by
    intro kvs
    induction kvs with
    | nil => exact fun es hes => hes
    | cons e kvs ih => exact fun es hes => ih _ (nodup_keys_put hes e.1 e.2)
  exact h kvs empty List.nodup_nil

theorem toList_put_of_notMem {es : Entries κ α} {k : κ} (h : k ∉ es.keys) (v : α) :
    (es.put k v).toList = es.toList ++ [(k, v)] := by
  rcases es with ⟨es⟩
  simp only [put]
  induction es with
  | nil => rfl
  | cons e es ih =>
    obtain ⟨hne, hes⟩ : e.1 ≠ k ∧ k ∉ (⟨es⟩ : Entries κ α).keys := by
      simpa [keys, eq_comm] using h
    rw [putIn, if_neg hne, ih hes, List.cons_append]

/-- Pairs that are put in under different keys stay as they are. -/
theorem toList_ofList {kvs : List (κ × α)} (h : (kvs.map Prod.fst).Nodup) :
    (ofList kvs).toList = kvs := by
  have hfold : ∀ (kvs : List (κ × α)) (es : Entries κ α), (es.keys ++ kvs.map Prod.fst).Nodup →
      (kvs.foldl (fun es e => es.put e.1 e.2) es).toList = es.toList ++ kvs := by
    intro kvs
    induction kvs with
    | nil => simp
    | cons e kvs ih =>
      intro es hes
      have hnew : e.1 ∉ es.keys := fun hin =>
        (List.nodup_append.mp hes).2.2 e.1 hin e.1 (List.mem_cons_self ..) rfl
      have hput := toList_put_of_notMem hnew e.2
      rw [List.foldl_cons, ih, hput, List.append_assoc, List.singleton_append]
      simpa [keys, hput] using hes
  simpa [ofList, empty, keys] using hfold kvs empty (by simpa [empty, keys] using h)

end Entries
end SymbolAtlas
