import SymbolAtlas.Proofs.RetirementMemory

/-!
# The first id that is free

An id that is neither taken nor retired is given as it is.  Of one that is in use a variant is
given: the first one from the counter on that is not in use, which the search reaches whatever other
ids look like variants (`freeSuffix_free`), and no earlier (`inUse_of_lt_freeSuffix`).  The counter
then points behind it and stands last among the counters, so that these are in the order of their
last updates; if there are too many the first one goes (`Lineage.Recounted`).
-/

namespace SymbolAtlas

theorem withSuffix_ne (id : String) (n : Nat) : withSuffix id n ≠ id := by
  intro h
  have := congrArg (List.length ∘ String.toList) h
  simp [withSuffix] at this

theorem le_freeSuffix (inUse : String → Bool) (id : String) (fuel n : Nat) :
    n ≤ freeSuffix inUse id fuel n := by
  fun_induction freeSuffix inUse id fuel n with
  | case1 => exact Nat.le_refl _
  | case2 n fuel hn ih => exact Nat.le_of_succ_le ih
  | case3 => exact Nat.le_refl _

/-- All variants that the search passes are in use. -/
theorem inUse_of_lt_freeSuffix {inUse : String → Bool} {id : String} {fuel n m : Nat} (hn : n ≤ m)
    (hm : m < freeSuffix inUse id fuel n) : inUse (withSuffix id m) = true := by
  fun_induction freeSuffix inUse id fuel n with
  | case1 => omega
  | case2 n fuel hused ih =>
    rcases Nat.eq_or_lt_of_le hn with rfl | hlt
    · exact hused
    · exact ih hlt hm
  | case3 => omega

namespace Lineage

/-- The counters of the other ids. -/
def otherCounters (counters : Entries String Nat) (id : String) : List (String × Nat) :=
  counters.toList.filter (·.1 ≠ id)

/-- The counter of `id` was set to `n`.  It stands behind all others, which stay in their order; if
they are too many the first one is dropped, which is the new one only if there is no other.
Counters that stood in the order of their last updates still do. -/
structure Recounted (capacity : Int) (id : String) (n : Nat) (before after : Entries String Nat) :
    Prop where
  kept : ((otherCounters before id).length : Int) + 1 ≤ capacity →
    after.toList = otherCounters before id ++ [(id, n)]
  trimmed : capacity < (otherCounters before id).length + 1 →
    after.toList = (otherCounters before id ++ [(id, n)]).tail
  counter : after.get? id = some n ∨ after.toList = [] ∧ otherCounters before id = [] ∧ capacity < 1
  order : ∀ updates : List String, before.keys.Sublist updates.dedup →
    after.keys.Sublist (updates ++ [id]).dedup

theorem toList_noteSuffix (l : Lineage) (id : String) (n : Nat) :
    (l.noteSuffix id n).suffixes.toList =
      if l.capacity < (otherCounters l.suffixes id).length + 1 then
        (otherCounters l.suffixes id ++ [(id, n)]).tail
      else otherCounters l.suffixes id ++ [(id, n)] := by
  have hnoted : (l.suffixes.putLast id n).toList = otherCounters l.suffixes id ++ [(id, n)] := rfl
  have hsize :
      ((l.suffixes.putLast id n).size : Int) = (otherCounters l.suffixes id).length + 1 := by
    rw [Entries.size, hnoted, List.length_append, List.length_singleton, Int.natCast_add,
      Int.natCast_one]
  rw [noteSuffix]
  dsimp only
  rw [hsize]
  split_ifs
  · rw [Entries.dropOldest, hnoted, List.drop_one]
  · exact hnoted

/-- **Setting a counter moves it to the end, and drops one if there are too many.** -/
theorem recounted_noteSuffix (l : Lineage) (id : String) (n : Nat) :
    Recounted l.capacity id n l.suffixes (l.noteSuffix id n).suffixes := by
  have hentries := toList_noteSuffix l id n
  have hothers : ∀ e ∈ otherCounters l.suffixes id, e.1 ≠ id := fun e he => by
    simpa using (List.mem_filter.mp he).2
  have hkeys : (otherCounters l.suffixes id).map Prod.fst = l.suffixes.keys.filter (· ≠ id) := by
    rw [Entries.keys, List.filter_map]
    rfl
  refine ⟨fun hroom => hentries.trans (if_neg (Int.not_lt.mpr hroom)),
    fun hfull => hentries.trans (if_pos hfull), ?_, fun updates hupdates => ?_⟩
  · -- the new counter is found behind others with other keys
    have hget : ∀ es : List (String × Nat), (∀ e ∈ es, e.1 ≠ id) →
        (es ++ [(id, n)]).lookup id = some n := by
      intro es hes
      rw [List.lookup_append, List.lookup_eq_none_iff.mpr fun e he =>
        bne_iff_ne.mpr (Ne.symm (hes e he))]
      simp
    rw [Entries.get?, hentries]
    split_ifs with hfull
    · cases hes : otherCounters l.suffixes id with
      | nil => exact Or.inr ⟨rfl, rfl, by simpa [hes] using hfull⟩
      | cons e es => exact Or.inl (hget es fun x hx => hothers x (hes ▸ List.mem_cons_of_mem e hx))
    · exact Or.inl (hget _ hothers)
  · have hnoted : ((otherCounters l.suffixes id ++ [(id, n)]).map Prod.fst).Sublist
        (updates ++ [id]).dedup := by
      rw [dedup_concat, List.map_append, hkeys]
      exact (hupdates.filter _).append (List.Sublist.refl _)
    rw [Entries.keys, hentries]
    split_ifs
    · exact ((List.tail_sublist _).map Prod.fst).trans hnoted
    · exact hnoted

/-! ### Counters start at two -/

/-- No counter is below two. -/
def FromTwo (l : Lineage) : Prop := ∀ e ∈ l.suffixes.toList, 2 ≤ e.2

theorem FromTwo.noteSuffix {l : Lineage} (h : l.FromTwo) (id : String) {n : Nat} (hn : 2 ≤ n) :
    (l.noteSuffix id n).FromTwo := by
  intro e he
  have hmem : e ∈ otherCounters l.suffixes id ++ [(id, n)] := by
    rw [toList_noteSuffix] at he
    split_ifs at he
    · exact List.mem_of_mem_tail he
    · exact he
  rcases List.mem_append.mp hmem with hother | hnew
  · exact h e (List.mem_filter.mp hother).1
  · rwa [List.mem_singleton.mp hnew]

theorem FromTwo.unused {l : Lineage} (h : l.FromTwo) (taken : List String) (id : String) :
    (l.unused taken id).2.FromTwo := by
  have hstart : 2 ≤ (l.suffixes.get? id).getD 2 := by
    cases hget : l.suffixes.get? id with
    | none => exact Nat.le_refl 2
    | some n =>
      obtain ⟨before, after, hsplit, -⟩ := List.lookup_eq_some_iff.mp hget
      exact h (id, n) (hsplit ▸ List.mem_append_right _ (List.mem_cons_self ..))
  simp only [Lineage.unused]
  split_ifs
  · exact h.noteSuffix id (Nat.le_succ_of_le (hstart.trans (le_freeSuffix ..)))
  · exact h

theorem FromTwo.retire {l : Lineage} (h : l.FromTwo) (id : String) : (l.retire id).FromTwo := by
  have herase : ∀ (out : List String) (es : Entries String Nat),
      (out.foldl Entries.erase es).toList ⊆ es.toList := by
    intro out
    induction out with
    | nil => exact fun es => List.Subset.refl _
    | cons x out ih =>
      exact fun es => List.Subset.trans (ih (es.erase x)) (List.filter_subset_self _)
  exact fun e he => h e (herase _ l.suffixes he)

/-- What giving an unused id and retiring an id keep is kept by every call, whether it succeeds or
not. -/
theorem assign_keeps {P : Lineage → Prop}
    (hunused : ∀ l taken id, P l → P (l.unused taken id).2)
    (hretire : ∀ l id, P l → P (l.retire id))
    {l : Lineage} (h : P l) (declarations : List Declaration) (previous : Option Snapshot) :
    P (l.assign declarations previous).2 := by
  obtain ⟨known, hknown⟩ : ∃ known, (previous.map Snapshot.declared).getD [] = known := ⟨_, rfl⟩
  have hone : ∀ (p : Pass) d container, P p.lineage →
      P (p.assignOne known declarations d container).lineage := by
    intro p d container hp
    rcases p.assignOne_cases known declarations d container
      with ⟨s, -, heq⟩ | ⟨x, l', hx, heq⟩
    · rw [heq]
      exact hp
    · have hl' := hunused p.lineage p.taken
        (naturalId p.lineage.fileId d.name d.line container) hp
      rw [hx] at hl'
      rw [heq]
      exact hl'
  have hall := Pass.assignAll_keeps (P := fun p => P p.lineage) declarations
    (fun p d container _ _ => hone p d container)
    ⟨l, known.map Symbol.id, [], []⟩ h
  simp only [assign, hknown]
  split
  all_goals
    rename_i p _ heq
    rw [heq] at hall
  · exact hall
  · generalize List.filter _ _ = gone
    cases gone with
    | nil => exact hall
    | cons id gone =>
      simp only [retireAll]
      split_ifs
      · exact hretire _ _ hall
      · exact List.foldlRecOn (id :: gone) _ hall fun l hl id _ => hretire l id hl

/-- An id is given as it is, or it is in use and so are its variants before the one given. -/
theorem unused_cases (l : Lineage) (taken : List String) (id : String) :
    id ∉ taken ∧ id ∉ l.retired ∧ l.unused taken id = (id, l) ∨
      ∃ n, l.unused taken id = (withSuffix id n, l.noteSuffix id (n + 1)) ∧
        (id ∈ taken ∨ id ∈ l.retired) ∧ (l.suffixes.get? id).getD 2 ≤ n ∧
        ∀ m < n, (l.suffixes.get? id).getD 2 ≤ m →
          withSuffix id m ∈ taken ∨ withSuffix id m ∈ l.retired := by
  simp only [unused]
  split_ifs with hused
  · refine Or.inr ⟨_, rfl, by simpa using hused, le_freeSuffix .., fun m hm hle => ?_⟩
    simpa using inUse_of_lt_freeSuffix hle hm
  · obtain ⟨htaken, hretired⟩ : id ∉ taken ∧ id ∉ l.retired := by simpa using hused
    exact Or.inl ⟨htaken, hretired, rfl⟩

/-- **The first free id.**  An id that is not in use is given as it is, and nothing changes.  Of one
that is taken or retired the first variant from its counter on is given that is neither, from two on
if there is no counter; the counter is set behind it, and the lineage is the same otherwise.  No
counter of a lineage with a past of any calls is below two. -/
theorem unused_first_free (l : Lineage) (taken : List String) (id : String) :
    ((l.unused taken id).1 = id ↔ id ∉ taken ∧ id ∉ l.retired) ∧
      ((l.unused taken id).1 = id → (l.unused taken id).2 = l) ∧
      ((l.unused taken id).1 ≠ id → ∃ n, (l.unused taken id).1 = withSuffix id n ∧
        (l.suffixes.get? id).getD 2 ≤ n ∧ withSuffix id n ∉ taken ∧ withSuffix id n ∉ l.retired ∧
        (∀ m < n, (l.suffixes.get? id).getD 2 ≤ m →
          withSuffix id m ∈ taken ∨ withSuffix id m ∈ l.retired) ∧
        (l.unused taken id).2 = { l with suffixes := (l.unused taken id).2.suffixes } ∧
        Recounted l.capacity id (n + 1) l.suffixes (l.unused taken id).2.suffixes) ∧
      ∀ (fileId : String) (capacity : Int) (calls : List (List Declaration × Option Snapshot)),
        (calls.foldl (fun l c => (l.assign c.1 c.2).2) (new fileId capacity)).FromTwo := by
  have hpast : ∀ fileId capacity (calls : List (List Declaration × Option Snapshot)),
      (calls.foldl (fun l c => (l.assign c.1 c.2).2) (new fileId capacity)).FromTwo :=
    fun fileId capacity calls => List.foldlRecOn calls _ (fun e he => by cases he)
      fun l hl c _ => assign_keeps (fun _ taken id h => h.unused taken id)
        (fun _ id h => h.retire id) hl c.1 c.2
  obtain ⟨-, htaken, hretired⟩ := unused_fresh l taken id
  rcases unused_cases l taken id with ⟨ht, hr, heq⟩ | ⟨n, heq, hused, hn, hleast⟩
  · rw [heq]
    exact ⟨⟨fun _ => ⟨ht, hr⟩, fun _ => rfl⟩, fun _ => rfl, fun h => absurd rfl h, hpast⟩
  · rw [heq] at htaken hretired ⊢
    exact ⟨⟨fun h => absurd h (withSuffix_ne id n), fun ⟨ht, hr⟩ => (hused.elim ht hr).elim⟩,
      fun h => absurd h (withSuffix_ne id n), fun _ => ⟨n, rfl, hn, htaken, hretired, hleast, rfl,
        recounted_noteSuffix l id (n + 1)⟩, hpast⟩

end Lineage
end SymbolAtlas
