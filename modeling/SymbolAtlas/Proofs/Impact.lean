import Mathlib.Order.Bounds.Basic
import Mathlib.Order.Nat
import SymbolAtlas.Proofs.CallSites

/-!
# Who is affected when a symbol goes

The impact of a symbol lists who calls it, directly or through others.  It is found layer by layer:
the callers of a layer that have not been seen before make up the next one.  The layer behind `k`
others holds the symbols that are `k` calls away and no fewer (`CallGraph.Frontier`), and every
layer keeps this of the next (`CallGraph.Frontier.step`).  So whoever is found is found at its
distance, once, and all of them are (`CallGraph.Frontier.found`).

The search is given a number of layers to go.  It never needs them all: what can still be found are
callers that have not been seen (`CallGraph.unseen`), and each layer that is not empty takes one of
these away (`CallGraph.length_unseen_lt`).
-/

namespace SymbolAtlas
namespace CallGraph

variable {g : CallGraph} {id x : String} {level seen : List String} {n : Nat}

/-! ### Calls and paths -/

/-- In some file `x` calls `y`. -/
def Calls (g : CallGraph) (x y : String) : Prop := ∃ f, ⟨x, y⟩ ∈ g.edgesOf f

/-- A path of `n` calls leads from one symbol to another. -/
inductive Path (g : CallGraph) : Nat → String → String → Prop
  | here (x : String) : Path g 0 x x
  | call {n : Nat} {x y z : String} (hcall : g.Calls x y) (hrest : Path g n y z) :
      Path g (n + 1) x z

/-- The shortest path from `x` to `y` that is not empty has `n` calls. -/
def Distance (g : CallGraph) (x y : String) (n : Nat) : Prop :=
  IsLeast {n | 0 < n ∧ g.Path n x y} n

theorem mem_flatten_of_mem_bucket {index : Entries String (List Edge)} {e : Edge}
    (h : e ∈ (index.get? x).getD []) : e ∈ index.values.flatten := by
  cases hget : index.get? x with
  | none => simp [hget] at h
  | some es =>
    rw [hget, Option.getD_some] at h
    obtain ⟨l, r, htoList, -⟩ := List.lookup_eq_some_iff.mp hget
    exact List.mem_flatten.mpr ⟨es, List.mem_map.mpr ⟨(x, es), by simp [htoList], rfl⟩, h⟩

theorem Sound.mem_edges_iff (h : g.Sound) {e : Edge} : e ∈ g.edges ↔ ∃ f, e ∈ g.edgesOf f := by
  constructor
  · intro he
    obtain ⟨es, hes, he⟩ := List.mem_flatten.mp he
    obtain ⟨⟨f, es'⟩, hmem, rfl⟩ := List.mem_map.mp hes
    refine ⟨f, ?_⟩
    rw [edgesOf, Entries.get?_of_mem h.keys hmem]
    exact he
  · rintro ⟨f, he⟩
    exact mem_flatten_of_mem_bucket he

/-- The callers that the index gives are those that the files have. -/
theorem Sound.mem_callers_iff (h : g.Sound) {y : String} :
    x ∈ (g.callers y).map Edge.caller ↔ g.Calls x y := by
  rw [h.exact.callers y, Calls, ← h.mem_edges_iff]
  constructor
  · intro hx
    obtain ⟨⟨x', y'⟩, he, rfl⟩ := List.mem_map.mp hx
    obtain ⟨hmem, hy⟩ := List.mem_filter.mp he
    obtain rfl : y' = y := of_decide_eq_true hy
    exact hmem
  · intro he
    exact List.mem_map.mpr ⟨_, List.mem_filter.mpr ⟨he, decide_eq_true rfl⟩, rfl⟩

/-! ### How far a symbol is away -/

/-- `n` calls lead from `x` to `id`, and no fewer do. -/
def Away (g : CallGraph) (id : String) (n : Nat) (x : String) : Prop :=
  IsLeast {n | g.Path n x id} n

theorem Path.exists_away (h : g.Path n x id) : ∃ m ≤ n, g.Away id m x := by
  classical
  have hex : ∃ n, g.Path n x id := ⟨n, h⟩
  exact ⟨Nat.find hex, Nat.find_min' hex h, Nat.isLeast_find hex⟩

/-- Who is one call further away calls somebody who is not. -/
theorem Away.exists_call (h : g.Away id (n + 1) x) : ∃ y, g.Calls x y ∧ g.Away id n y := by
  obtain ⟨hpath, hleast⟩ := h
  cases hpath with
  | @call _ _ y _ hcall hrest =>
    refine ⟨y, hcall, hrest, fun m hm => ?_⟩
    have hle : n + 1 ≤ m + 1 := hleast (Path.call hcall hm)
    omega

/-- On the way from afar every distance is passed. -/
theorem Away.exists_nearer {k : Nat} (h : g.Away id n x) (hk : k ≤ n) : ∃ y, g.Away id k y := by
  induction n generalizing x with
  | zero => exact ⟨x, Nat.le_zero.mp hk ▸ h⟩
  | succ n ih =>
    rcases Nat.le_succ_iff.mp hk with hk | rfl
    · obtain ⟨y, -, hy⟩ := h.exists_call
      exact ih hy hk
    · exact ⟨x, h⟩

/-- For everyone but `id` the shortest path is not empty anyway. -/
theorem Distance.away (hx : x ≠ id) (h : g.Distance x id n) : g.Away id n x := by
  refine ⟨h.1.2, fun m hm => h.2 ⟨Nat.pos_of_ne_zero ?_, hm⟩⟩
  rintro rfl
  cases hm
  exact hx rfl

/-! ### One layer after the other -/

/-- The callers of a layer that have not been seen, each once. -/
def nextLayer (g : CallGraph) (seen level : List String) : List String :=
  ((level.flatMap fun id => (g.callers id).map Edge.caller).filter
    fun id => !seen.contains id).eraseDups

theorem layers_succ (g : CallGraph) (fuel : Nat) (seen level : List String) :
    g.layers (fuel + 1) seen level =
      if g.nextLayer seen level = [] then []
      else g.nextLayer seen level ++
        g.layers fuel (seen ++ g.nextLayer seen level) (g.nextLayer seen level) := by
  rw [layers]
  split
  · rename_i hnil
    exact (if_pos hnil).symm
  · rename_i hne
    exact (if_neg hne).symm

/-- The next layer holds the callers not seen so far. -/
theorem mem_nextLayer_iff :
    x ∈ g.nextLayer seen level ↔
      (∃ y ∈ level, x ∈ (g.callers y).map Edge.caller) ∧ x ∉ seen := by
  rw [nextLayer, List.mem_eraseDups, List.mem_filter, List.mem_flatMap]
  simp

/-- The callers there are that have not been seen. -/
def unseen (g : CallGraph) (seen : List String) : List String :=
  (g.incoming.values.flatten.map Edge.caller).filter (· ∉ seen)

theorem mem_unseen_of_mem_nextLayer (h : x ∈ g.nextLayer seen level) : x ∈ g.unseen seen := by
  obtain ⟨⟨y, -, hx⟩, hnew⟩ := mem_nextLayer_iff.mp h
  refine List.mem_filter.mpr ⟨?_, decide_eq_true hnew⟩
  obtain ⟨e, he, rfl⟩ := List.mem_map.mp hx
  exact List.mem_map_of_mem (mem_flatten_of_mem_bucket he)

theorem nextLayer_eq_nil (h : (g.unseen seen).length ≤ 0) (level : List String) :
    g.nextLayer seen level = [] := by
  refine List.eq_nil_iff_forall_not_mem.mpr fun x hx => ?_
  have hmem := mem_unseen_of_mem_nextLayer hx
  rw [List.eq_nil_of_length_eq_zero (Nat.le_zero.mp h)] at hmem
  cases hmem

/-- **A layer takes callers away.**  Fewer of them are left for the layers behind it. -/
theorem length_unseen_lt (h : g.nextLayer seen level ≠ []) :
    (g.unseen (seen ++ g.nextLayer seen level)).length < (g.unseen seen).length := by
  have hfilter : g.unseen (seen ++ g.nextLayer seen level) =
      (g.unseen seen).filter (· ∉ g.nextLayer seen level) := by
    rw [unseen, unseen, List.filter_filter]
    refine List.filter_congr fun x _ => ?_
    simp [Bool.and_comm]
  obtain ⟨x, hx⟩ := List.exists_mem_of_ne_nil _ h
  rw [hfilter]
  exact List.length_filter_lt_length_iff_exists.mpr
    ⟨x, mem_unseen_of_mem_nextLayer hx, by simpa using hx⟩

/-- **More layers to go find nothing more**, if there are as many as callers that have not been
seen. -/
theorem layers_eq_of_le {fuel fuel' : Nat} (hle : fuel ≤ fuel')
    (h : (g.unseen seen).length ≤ fuel) : g.layers fuel' seen level = g.layers fuel seen level := by
  induction fuel generalizing fuel' seen level with
  | zero =>
    cases fuel' with
    | zero => rfl
    | succ fuel' => rw [layers_succ, if_pos (nextLayer_eq_nil h level), layers]
  | succ fuel ih =>
    obtain ⟨fuel', rfl⟩ := Nat.exists_eq_add_of_le' hle
    rw [← Nat.add_assoc, layers_succ, layers_succ]
    split_ifs with hnil
    · rfl
    · have hless := length_unseen_lt hnil
      rw [ih (by omega) (by omega)]

/-! ### What is found -/

/-- Before the layers behind the first `k` are searched: who is at most `k` calls away from `id` has
been seen, and who is exactly that far away makes up the last layer. -/
structure Frontier (g : CallGraph) (id : String) (k : Nat) (seen level : List String) : Prop where
  seen : ∀ x, x ∈ seen ↔ ∃ n ≤ k, g.Path n x id
  level : ∀ x, x ∈ level ↔ g.Away id k x

/-- The list holds who is more than `k` calls away from `id`, each once and nearest first. -/
structure Found (g : CallGraph) (id : String) (k : Nat) (xs : List String) : Prop where
  mem : ∀ x, x ∈ xs ↔ ∃ n, k < n ∧ g.Away id n x
  nodup : xs.Nodup
  nearest_first : xs.Pairwise fun x y => ∀ m n, g.Away id m x → g.Away id n y → m ≤ n

theorem frontier_start (g : CallGraph) (id : String) : g.Frontier id 0 [id] [id] := by
  have hzero : ∀ x, g.Path 0 x id ↔ x = id := by
    intro x
    constructor
    · intro h
      cases h
      rfl
    · rintro rfl
      exact .here x
  refine ⟨fun x => ?_, fun x => ?_⟩
  · rw [List.mem_singleton, ← hzero]
    constructor
    · exact fun h => ⟨0, Nat.le_refl 0, h⟩
    · rintro ⟨n, hn, h⟩
      rwa [Nat.le_zero.mp hn] at h
  · rw [List.mem_singleton, ← hzero]
    exact ⟨fun h => ⟨h, fun m _ => Nat.zero_le m⟩, fun h => h.1⟩

namespace Frontier

variable {g : CallGraph} {id : String} {k : Nat} {seen level : List String}

/-- **The next layer is one call further away.** -/
theorem mem_nextLayer (h : g.Frontier id k seen level) (hg : g.Sound) (x : String) :
    x ∈ g.nextLayer seen level ↔ g.Away id (k + 1) x := by
  rw [mem_nextLayer_iff, h.seen]
  constructor
  · rintro ⟨⟨y, hy, hx⟩, hnew⟩
    have hpath := Path.call (hg.mem_callers_iff.mp hx) ((h.level y).mp hy).1
    refine ⟨hpath, fun m hm => ?_⟩
    by_contra hlt
    exact hnew ⟨m, by omega, hm⟩
  · intro hx
    obtain ⟨y, hcall, hy⟩ := hx.exists_call
    refine ⟨⟨y, (h.level y).mpr hy, hg.mem_callers_iff.mpr hcall⟩, ?_⟩
    rintro ⟨n, hn, hpath⟩
    have hle : k + 1 ≤ n := hx.2 hpath
    omega

theorem step (h : g.Frontier id k seen level) (hg : g.Sound) :
    g.Frontier id (k + 1) (seen ++ g.nextLayer seen level) (g.nextLayer seen level) := by
  refine ⟨fun x => ?_, h.mem_nextLayer hg⟩
  rw [List.mem_append, h.seen, h.mem_nextLayer hg]
  constructor
  · rintro (⟨n, hn, hpath⟩ | hx)
    · exact ⟨n, by omega, hpath⟩
    · exact ⟨k + 1, Nat.le_refl _, hx.1⟩
  · rintro ⟨n, hn, hpath⟩
    obtain ⟨m, hm, hx⟩ := hpath.exists_away
    rcases Nat.lt_or_ge k m with hkm | hmk
    · obtain rfl : m = k + 1 := by omega
      exact Or.inr hx
    · exact Or.inl ⟨m, hmk, hx.1⟩

/-- An empty layer ends the search: nobody is further away. -/
theorem found_nil (h : g.Frontier id k seen level) (hg : g.Sound)
    (hnil : g.nextLayer seen level = []) : g.Found id k [] := by
  refine ⟨fun x => iff_of_false List.not_mem_nil ?_, List.nodup_nil, List.Pairwise.nil⟩
  rintro ⟨n, hn, hx⟩
  obtain ⟨y, hy⟩ := hx.exists_nearer hn
  rw [← h.mem_nextLayer hg, hnil] at hy
  exact List.not_mem_nil hy

/-- The next layer comes before what is found behind it. -/
theorem found_append (h : g.Frontier id k seen level) (hg : g.Sound) {xs : List String}
    (hxs : g.Found id (k + 1) xs) : g.Found id k (g.nextLayer seen level ++ xs) := by
  have hlayer : ∀ x ∈ g.nextLayer seen level, ∀ n, g.Away id n x → n = k + 1 := fun x hx n hn =>
    IsLeast.unique hn ((h.mem_nextLayer hg x).mp hx)
  have hbehind : ∀ x ∈ xs, ∀ n, g.Away id n x → k + 1 < n := by
    intro x hx n hn
    obtain ⟨m, hm, hx⟩ := (hxs.mem x).mp hx
    rwa [IsLeast.unique hn hx]
  refine ⟨fun x => ?_, List.nodup_append.mpr ⟨Snapshot.nodup_eraseDups _, hxs.nodup, ?_⟩,
    List.pairwise_append.mpr ⟨?_, hxs.nearest_first, ?_⟩⟩
  · rw [List.mem_append, h.mem_nextLayer hg, hxs.mem]
    constructor
    · rintro (hx | ⟨n, hn, hx⟩)
      · exact ⟨k + 1, Nat.lt_succ_self k, hx⟩
      · exact ⟨n, by omega, hx⟩
    · rintro ⟨n, hn, hx⟩
      rcases Nat.eq_or_lt_of_le (Nat.succ_le_of_lt hn) with rfl | hlt
      · exact Or.inl hx
      · exact Or.inr ⟨n, hlt, hx⟩
  · rintro x hx y hy rfl
    have haway := (h.mem_nextLayer hg x).mp hx
    exact Nat.lt_irrefl _ (hbehind x hy _ haway)
  · refine List.pairwise_of_forall_mem_list fun x hx y hy m n hm hn => ?_
    rw [hlayer x hx m hm, hlayer y hy n hn]
  · intro x hx y hy m n hm hn
    rw [hlayer x hx m hm]
    exact Nat.le_of_lt (hbehind y hy n hn)

/-- **The layers find everyone further away**, if there are enough of them to go.  The induction is
on their number. -/
theorem found (h : g.Frontier id k seen level) (hg : g.Sound) {fuel : Nat}
    (hfuel : (g.unseen seen).length ≤ fuel) : g.Found id k (g.layers fuel seen level) := by
  induction fuel generalizing k seen level with
  | zero => exact h.found_nil hg (nextLayer_eq_nil hfuel level)
  | succ fuel ih =>
    rw [layers_succ]
    split_ifs with hnil
    · exact h.found_nil hg hnil
    · have hless := length_unseen_lt hnil
      exact h.found_append hg (ih (h.step hg) (by omega))

end Frontier

/-- There are no more callers than edges. -/
theorem length_unseen_le (g : CallGraph) (seen : List String) :
    (g.unseen seen).length ≤ g.incoming.values.flatten.length := by
  have hle := List.length_filter_le (fun x => decide (x ∉ seen))
    (g.incoming.values.flatten.map Edge.caller)
  rwa [List.length_map] at hle

theorem Sound.found_impact (hg : g.Sound) (id : String) : g.Found id 0 (g.impact id) :=
  (g.frontier_start id).found hg (g.length_unseen_le [id])

end CallGraph

namespace Session

/-- **The impact of a symbol is who calls it, directly or through others.**  At every moment of a
session the search comes to an end by itself, however many layers it may go on for.  It lists, each
once and nearest first, all who have a path of calls to the symbol, and never the symbol itself. -/
theorem Moment.impact_exact {s : Session} (h : s.Moment) (id : String) :
    (∀ fuel, s.graph.incoming.values.flatten.length ≤ fuel →
        s.graph.layers fuel [id] [id] = s.graph.impact id) ∧
      (s.graph.impact id).Nodup ∧
      (∀ x, x ∈ s.graph.impact id ↔ x ≠ id ∧ ∃ n, 0 < n ∧ s.graph.Path n x id) ∧
      (s.graph.impact id).Pairwise fun x y =>
        ∀ m n, s.graph.Distance x id m → s.graph.Distance y id n → m ≤ n := by
  have hfound := h.identifies.graph.found_impact id
  have hmem : ∀ x, x ∈ s.graph.impact id ↔ x ≠ id ∧ ∃ n, 0 < n ∧ s.graph.Path n x id := by
    intro x
    rw [hfound.mem]
    constructor
    · rintro ⟨n, hn, hx⟩
      refine ⟨?_, n, hn, hx.1⟩
      rintro rfl
      have hle : n ≤ 0 := hx.2 (CallGraph.Path.here x)
      omega
    · rintro ⟨hne, n, -, hpath⟩
      obtain ⟨m, -, hx⟩ := hpath.exists_away
      refine ⟨m, Nat.pos_of_ne_zero ?_, hx⟩
      rintro rfl
      cases hx.1
      exact hne rfl
  refine ⟨fun fuel hfuel => CallGraph.layers_eq_of_le hfuel (s.graph.length_unseen_le [id]),
    hfound.nodup, hmem, hfound.nearest_first.imp_of_mem fun {x y} hx hy hxy m n hm hn => ?_⟩
  exact hxy m n (hm.away ((hmem x).mp hx).1) (hn.away ((hmem y).mp hy).1)

/-- Three functions that call each other in a circle, one of them itself too, and a function that
calls nobody.  The file calls the second one. -/
def circle : String :=
  "function a() { a(); b(); c(); }\nfunction b() { c(); }\nfunction c() { a(); }\n" ++
    "function d() {}\nb();"

/-- The circle and the file are affected when the third one goes, which is not listed itself. -/
theorem circle_impact :
    (opened circle).graph.impact "a.ts::c@3" = ["a.ts::a@1", "a.ts::b@2", "a.ts::<file>@1"] ∧
      (opened circle).graph.Path 2 "a.ts::<file>@1" "a.ts::c@3" ∧
      ¬ ∃ n, 0 < n ∧ (opened circle).graph.Path n "a.ts::d@4" "a.ts::c@3" := by
  obtain ⟨hgraph, hfile, hb⟩ :
      (opened circle).graph.impact "a.ts::c@3" = ["a.ts::a@1", "a.ts::b@2", "a.ts::<file>@1"] ∧
        ⟨"a.ts::<file>@1", "a.ts::b@2"⟩ ∈ (opened circle).graph.edgesOf "a.ts" ∧
        ⟨"a.ts::b@2", "a.ts::c@3"⟩ ∈ (opened circle).graph.edgesOf "a.ts" := by decide +kernel
  obtain ⟨-, -, hmem, -⟩ := (moment_opened circle).impact_exact "a.ts::c@3"
  refine ⟨hgraph, .call ⟨_, hfile⟩ (.call ⟨_, hb⟩ (.here _)), ?_⟩
  intro hpath
  have hd := (hmem "a.ts::d@4").mpr ⟨by decide, hpath⟩
  rw [hgraph] at hd
  simp at hd

end Session
end SymbolAtlas
