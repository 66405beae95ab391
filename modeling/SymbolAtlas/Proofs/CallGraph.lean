import Mathlib.Data.List.Flatten
import Mathlib.Data.List.Nodup
import SymbolAtlas.Graph.CallGraph
import SymbolAtlas.Proofs.Entries
import SymbolAtlas.Proofs.SymbolId

/-!
# The indexes of the call graph

The graph keeps its edges three times: file by file, by caller and by callee.
`CallGraph.Exact` says that the two indexes are nothing but views of the edges of the files:
the bucket of a symbol lists the edges with that end in their order, and a symbol without
such edges has no bucket.

Both indexes are kept in the same way, so what adding and taking out an edge does is proved once,
for any choice `key` of an end (`Indexes.link`, `Indexes.unlink`).  The new edges of a file come
last in their buckets, while the file keeps its place among the files; the two orders agree
because an id belongs to one file (`filter_key_comm`).  `CallGraph.Sound` adds to the views that
the edges of a file have both ends in it; replacing and dropping a file keep it.
-/

namespace SymbolAtlas

/-! ### One index -/

/-- A bucket for the edges given, none if there are none. -/
def bucket? (es : List Edge) : Option (List Edge) := if es = [] then none else some es

@[simp] theorem bucket?_nil : bucket? [] = none := rfl

@[simp] theorem bucket?_getD (es : List Edge) : (bucket? es).getD [] = es := by
  unfold bucket?
  split_ifs with h <;> simp [h]

/-- No bucket is empty. -/
theorem bucket?_ne_some_nil (es : List Edge) : bucket? es ≠ some [] := by
  unfold bucket?
  split_ifs with h <;> simp [h]

/-- The index holds, at each symbol, the edges of `es` with that end. -/
def Indexes (key : Edge → String) (index : Entries String (List Edge)) (es : List Edge) : Prop :=
  ∀ x, index.get? x = bucket? (es.filter (key · = x))

namespace Indexes

variable {key : Edge → String} {index : Entries String (List Edge)} {es : List Edge}

/-- An edge is put into the bucket of its key. -/
theorem link (h : Indexes key index es) (e : Edge) :
    Indexes key (CallGraph.link index (key e) e) (es ++ [e]) := by
  intro x
  rw [CallGraph.link, Entries.get?_put, h (key e), bucket?_getD, List.filter_append]
  split_ifs with hx
  · subst hx
    simp [bucket?]
  · simp [h x, Ne.symm hx]

/-- It is taken out again. -/
theorem unlink (h : Indexes key index es) (e : Edge) :
    Indexes key (CallGraph.unlink index (key e) e) (es.filter (· ≠ e)) := by
  intro x
  have hcomm : (es.filter (· ≠ e)).filter (key · = x) =
      (es.filter (key · = x)).filter (· ≠ e) := by
    simp only [List.filter_filter, Bool.and_comm]
  -- an edge with another end is not the one that goes
  have hother : x ≠ key e → (es.filter (key · = x)).filter (· ≠ e) = es.filter (key · = x) := by
    intro hx
    refine List.filter_eq_self.mpr fun e' he' => ?_
    have : key e' = x := of_decide_eq_true (List.mem_filter.mp he').2
    exact decide_eq_true fun hee => hx (hee ▸ this.symm)
  rw [hcomm, CallGraph.unlink]
  split
  · rename_i hnone
    by_cases hx : x = key e
    · subst hx
      rw [h (key e)] at hnone
      have hnil : es.filter (key · = key e) = [] := by
        unfold bucket? at hnone
        split_ifs at hnone with hnil
        exact hnil
      rw [h (key e), hnil, List.filter_nil]
    · rw [hother hx, h x]
  · rename_i bucket hsome
    have hbucket : bucket = es.filter (key · = key e) := by
      have := congrArg (Option.getD · []) ((h (key e)).symm.trans hsome)
      simpa using this.symm
    split
    · rename_i hnil
      rw [Entries.get?_erase]
      split_ifs with hx
      · subst hx
        rw [← hbucket, hnil, bucket?_nil]
      · rw [hother hx, h x]
    · rename_i rest hrest
      rw [Entries.get?_put]
      split_ifs with hx
      · subst hx
        rw [← hbucket, bucket?, if_neg hrest]
      · rw [hother hx, h x]

theorem foldl_link (new : List Edge) (h : Indexes key index es) :
    Indexes key (new.foldl (fun index e => CallGraph.link index (key e) e) index) (es ++ new) := by
  induction new generalizing index es with
  | nil => simpa using h
  | cons e new ih => simpa using ih (h.link e)

theorem foldl_unlink (old : List Edge) (h : Indexes key index es) :
    Indexes key (old.foldl (fun index e => CallGraph.unlink index (key e) e) index)
      (es.filter (· ∉ old)) := by
  induction old generalizing index es with
  | nil => simpa using h
  | cons e old ih =>
    have := ih (h.unlink e)
    simpa [List.filter_filter, Bool.and_comm] using this

end Indexes

/-! ### The whole graph -/

namespace CallGraph

variable {g : CallGraph} {f : String} {es l old r : List Edge} {key : Edge → String}

/-- The edges of all files, file after file. -/
def edges (g : CallGraph) : List Edge := g.files.values.flatten

/-- **The indexes are views of the edges of the files.** -/
structure Exact (g : CallGraph) : Prop where
  callees : ∀ x, g.callees x = g.edges.filter (·.caller = x)
  callers : ∀ x, g.callers x = g.edges.filter (·.callee = x)
  nodup : g.edges.Nodup
  /-- The edges at a symbol, at either end, are edges of one file. -/
  one_file : ∀ f f' e e' x, e ∈ g.edgesOf f → e' ∈ g.edgesOf f' →
    (e.caller = x ∨ e.callee = x) → (e'.caller = x ∨ e'.callee = x) → f = f'
  no_empty_bucket : ∀ x, g.outgoing.get? x ≠ some [] ∧ g.incoming.get? x ≠ some []

/-- The edges have both ends in the file. -/
def Within (f : String) (es : List Edge) : Prop :=
  ∀ e ∈ es, IsIdOf f e.caller ∧ IsIdOf f e.callee

/-- What every graph of a session satisfies. -/
structure Sound (g : CallGraph) : Prop where
  keys : g.files.keys.Nodup
  files : ∀ f es, g.files.get? f = some es → es.Nodup ∧ Within f es
  outgoing : Indexes Edge.caller g.outgoing g.edges
  incoming : Indexes Edge.callee g.incoming g.edges

/-- An empty graph is sound. -/
theorem sound_empty : Sound empty :=
  ⟨List.nodup_nil, fun f es h => by simp [empty] at h, fun x => rfl, fun x => rfl⟩

theorem Sound.within_edgesOf (h : g.Sound) (f : String) : Within f (g.edgesOf f) := by
  intro e he
  unfold edgesOf at he
  cases hget : g.files.get? f with
  | none => simp [hget] at he
  | some es => exact (h.files f es hget).2 e (by simpa [hget] using he)

/-- **In a sound graph both indexes list just the edges of the files.** -/
theorem Sound.exact (h : g.Sound) : g.Exact := by
  refine ⟨fun x => ?_, fun x => ?_, ?_, ?_, fun x => ⟨?_, ?_⟩⟩
  · rw [callees, h.outgoing x, bucket?_getD]
  · rw [callers, h.incoming x, bucket?_getD]
  · have hpair : g.files.toList.Pairwise fun a b => a.1 ≠ b.1 := List.pairwise_map.mp h.keys
    rw [edges, List.nodup_flatten, Entries.values, List.pairwise_map]
    constructor
    · intro es hes
      obtain ⟨⟨f, es'⟩, hmem, rfl⟩ := List.mem_map.mp hes
      exact (h.files f es' (Entries.get?_of_mem h.keys hmem)).1
    · refine hpair.imp_of_mem fun {a b} ha hb hne => ?_
      intro e hea heb
      have hia := (h.files a.1 a.2 (Entries.get?_of_mem h.keys ha)).2 e hea
      have hib := (h.files b.1 b.2 (Entries.get?_of_mem h.keys hb)).2 e heb
      exact hne (hia.1.unique hib.1)
  · intro f f' e e' x he he' hx hx'
    have hid : IsIdOf f x := by
      rcases hx with rfl | rfl
      · exact (h.within_edgesOf f e he).1
      · exact (h.within_edgesOf f e he).2
    have hid' : IsIdOf f' x := by
      rcases hx' with rfl | rfl
      · exact (h.within_edgesOf f' e' he').1
      · exact (h.within_edgesOf f' e' he').2
    exact hid.unique hid'
  · rw [h.outgoing x]
    exact bucket?_ne_some_nil _
  · rw [h.incoming x]
    exact bucket?_ne_some_nil _

/-! ### Replacing and dropping the edges of a file -/

@[simp] theorem foldl_addEdge (es : List Edge) (g : CallGraph) :
    (es.foldl addEdge g).files = g.files ∧
      (es.foldl addEdge g).outgoing =
        es.foldl (fun index e => link index e.caller e) g.outgoing ∧
      (es.foldl addEdge g).incoming =
        es.foldl (fun index e => link index e.callee e) g.incoming := by
  induction es generalizing g with
  | nil => exact ⟨rfl, rfl, rfl⟩
  | cons e es ih => exact ih (g.addEdge e)

@[simp] theorem foldl_removeEdge (es : List Edge) (g : CallGraph) :
    (es.foldl removeEdge g).files = g.files ∧
      (es.foldl removeEdge g).outgoing =
        es.foldl (fun index e => unlink index e.caller e) g.outgoing ∧
      (es.foldl removeEdge g).incoming =
        es.foldl (fun index e => unlink index e.callee e) g.incoming := by
  induction es generalizing g with
  | nil => exact ⟨rfl, rfl, rfl⟩
  | cons e es ih => exact ih (g.removeEdge e)

theorem files_replace (g : CallGraph) (f : String) (es : List Edge) :
    (g.replace f es).files = g.files.put f es := by simp [CallGraph.replace]

theorem files_drop (g : CallGraph) (f : String) : (g.drop f).files = g.files.erase f := by
  simp [CallGraph.drop]

/-- Edges that all have both ends in files other than `f`. -/
def Outside (f : String) (es : List Edge) : Prop := ∀ e ∈ es, ∃ g, g ≠ f ∧
  IsIdOf g e.caller ∧ IsIdOf g e.callee

/-- Edges of other files are no edges of this one. -/
theorem Outside.not_mem (h : Outside f es) (hold : Within f old) {e : Edge} (he : e ∈ es) :
    e ∉ old := by
  intro hin
  obtain ⟨g, hne, hid, -⟩ := h e he
  exact hne (hid.unique (hold e hin).1)

/-- Around a file: the edges of the files before it, its own, and those of the files after it. -/
theorem Sound.exists_around (h : g.Sound) (f : String) :
    ∃ l r : List Edge, g.edges = l ++ g.edgesOf f ++ r ∧
      (∀ es, ((g.files.put f es).values).flatten = l ++ es ++ r) ∧
      ((g.files.erase f).values).flatten = l ++ r ∧ Outside f (l ++ r) := by
  obtain ⟨l, r, hget, hput, herase, hout⟩ := Entries.exists_split h.keys f
  refine ⟨(l.map Prod.snd).flatten, (r.map Prod.snd).flatten, ?_, fun es => ?_, ?_, ?_⟩
  · rw [edges, Entries.values, hget, edgesOf]
    cases g.files.get? f <;> simp
  · rw [Entries.values, hput]
    simp
  · rw [Entries.values, herase]
    simp
  · intro e he
    rw [← List.flatten_append, ← List.map_append] at he
    obtain ⟨es, hes, hin⟩ := List.mem_flatten.mp he
    obtain ⟨⟨f', es'⟩, hmem, rfl⟩ := List.mem_map.mp hes
    have hfile : g.files.get? f' = some es' := by
      refine Entries.get?_of_mem h.keys ?_
      rw [hget]
      rcases List.mem_append.mp hmem with hm | hm <;> simp [hm]
    exact ⟨f', hout _ hmem, (h.files f' es' hfile).2 e hin⟩

/-- At a symbol of a file there are edges of that file only. -/
theorem Sound.filter_edges (h : g.Sound) (hkey : ∀ e, key e = e.caller ∨ key e = e.callee)
    {x : String} (hx : IsIdOf f x) :
    g.edges.filter (key · = x) = (g.edgesOf f).filter (key · = x) := by
  obtain ⟨l, r, hedges, -, -, hlr⟩ := h.exists_around f
  have hnone : ∀ {es : List Edge}, es ⊆ l ++ r → es.filter (key · = x) = [] := by
    intro es hes
    refine List.filter_eq_nil_iff.mpr fun e he hex => ?_
    obtain ⟨f', hne, hcaller, hcallee⟩ := hlr e (hes he)
    have hid : IsIdOf f' (key e) := by
      rcases hkey e with heq | heq
      · exact heq ▸ hcaller
      · exact heq ▸ hcallee
    rw [of_decide_eq_true hex] at hid
    exact hne (hid.unique hx)
  rw [hedges, List.filter_append, List.filter_append, hnone (List.subset_append_left l r),
    hnone (List.subset_append_right l r), List.append_nil, List.nil_append]

/-- Without the edges of `f` the others are left, in their order. -/
theorem filter_outside (hlr : Outside f (l ++ r)) (hold : Within f old) :
    (l ++ old ++ r).filter (· ∉ old) = l ++ r := by
  have hl : l.filter (· ∉ old) = l := List.filter_eq_self.mpr fun e he =>
    decide_eq_true (hlr.not_mem hold (List.mem_append_left r he))
  have hr : r.filter (· ∉ old) = r := List.filter_eq_self.mpr fun e he =>
    decide_eq_true (hlr.not_mem hold (List.mem_append_right l he))
  have ho : old.filter (· ∉ old) = [] := List.filter_eq_nil_iff.mpr fun e he => by simpa using he
  rw [List.filter_append, List.filter_append, hl, hr, ho, List.append_nil]

/-- At one symbol the edges of a file and those of the others do not mix, so it does not matter
which come first. -/
theorem filter_key_comm {new : List Edge} (hout : ∀ e ∈ r, ∃ g, g ≠ f ∧ IsIdOf g (key e))
    (hnew : ∀ e ∈ new, IsIdOf f (key e)) (x : String) :
    (l ++ r ++ new).filter (key · = x) = (l ++ new ++ r).filter (key · = x) := by
  simp only [List.filter_append, List.append_assoc, List.append_cancel_left_eq]
  by_cases hr : r.filter (key · = x) = []
  · rw [hr, List.nil_append, List.append_nil]
  · obtain ⟨e, he⟩ := List.exists_mem_of_ne_nil _ hr
    obtain ⟨her, hex⟩ := List.mem_filter.mp he
    have hn : new.filter (key · = x) = [] := by
      refine List.filter_eq_nil_iff.mpr fun e' he' hex' => ?_
      obtain ⟨g, hne, hid⟩ := hout e her
      rw [of_decide_eq_true hex] at hid
      have hid' := hnew e' he'
      rw [of_decide_eq_true hex'] at hid'
      exact hne (hid.unique hid')
    rw [hn, List.nil_append, List.append_nil]

/-- One index, when the edges of a file are replaced. -/
theorem indexes_replaced {index : Entries String (List Edge)} {new : List Edge}
    (hlr : Outside f (l ++ r)) (hold : Within f old)
    (hout : ∀ e ∈ r, ∃ g, g ≠ f ∧ IsIdOf g (key e)) (hnew : ∀ e ∈ new, IsIdOf f (key e))
    (h : Indexes key index (l ++ old ++ r)) :
    Indexes key (new.foldl (fun index e => link index (key e) e)
      (old.foldl (fun index e => unlink index (key e) e) index)) (l ++ new ++ r) := by
  have hremoved := h.foldl_unlink old
  rw [filter_outside hlr hold] at hremoved
  intro x
  rw [hremoved.foldl_link new x, filter_key_comm hout hnew x]

/-- **Replacing the edges of a file keeps the graph sound.** -/
theorem Sound.replace (h : g.Sound) (hnodup : es.Nodup) (hes : Within f es) :
    (g.replace f es).Sound := by
  obtain ⟨l, r, hedges, hput, -, hlr⟩ := h.exists_around f
  have hr : Outside f r := fun e he => hlr e (List.mem_append_right l he)
  have hold := h.within_edgesOf f
  have hcaller := h.outgoing
  have hcallee := h.incoming
  rw [hedges] at hcaller hcallee
  have hfiles := g.files_replace f es
  have hall : (g.replace f es).edges = l ++ es ++ r := by rw [edges, hfiles, hput]
  refine ⟨?_, fun f' es' hf' => ?_, ?_, ?_⟩
  · rw [hfiles]
    exact Entries.nodup_keys_put h.keys f es
  · rw [hfiles, Entries.get?_put] at hf'
    split_ifs at hf' with hff
    · obtain rfl := Option.some.inj hf'
      exact hff ▸ ⟨hnodup, hes⟩
    · exact h.files f' es' hf'
  · rw [hall]
    simp only [CallGraph.replace, foldl_addEdge, foldl_removeEdge]
    exact indexes_replaced hlr hold (fun e he => (hr e he).imp fun _ hg => ⟨hg.1, hg.2.1⟩)
      (fun e he => (hes e he).1) hcaller
  · rw [hall]
    simp only [CallGraph.replace, foldl_addEdge, foldl_removeEdge]
    exact indexes_replaced hlr hold (fun e he => (hr e he).imp fun _ hg => ⟨hg.1, hg.2.2⟩)
      (fun e he => (hes e he).2) hcallee

/-- Replacing the edges of a file by themselves leaves all lists of edges as they are. -/
theorem Sound.replace_same (h : g.Sound) (hf : g.files.get? f = some es) :
    (∀ f', (g.replace f es).edgesOf f' = g.edgesOf f') ∧
      ∀ x, (g.replace f es).callers x = g.callers x ∧ (g.replace f es).callees x = g.callees x := by
  have hfiles : (g.replace f es).files = g.files := by
    rw [files_replace, Entries.put_of_get? hf]
  have hedges : (g.replace f es).edges = g.edges := by rw [edges, hfiles, edges]
  obtain ⟨hnodup, hwithin⟩ := h.files f es hf
  have hexact := (h.replace hnodup hwithin).exact
  refine ⟨fun f' => by rw [edgesOf, hfiles, edgesOf], fun x => ⟨?_, ?_⟩⟩
  · rw [hexact.callers, hedges, h.exact.callers]
  · rw [hexact.callees, hedges, h.exact.callees]

/-- **Dropping a file keeps the graph sound.** -/
theorem Sound.drop (h : g.Sound) (f : String) : (g.drop f).Sound := by
  obtain ⟨l, r, hedges, -, herase, hlr⟩ := h.exists_around f
  have hold := h.within_edgesOf f
  have hcaller := h.outgoing.foldl_unlink (g.edgesOf f)
  have hcallee := h.incoming.foldl_unlink (g.edgesOf f)
  rw [hedges, filter_outside hlr hold] at hcaller hcallee
  have hfiles := g.files_drop f
  have hall : (g.drop f).edges = l ++ r := by rw [edges, hfiles, herase]
  refine ⟨?_, fun f' es' hf' => ?_, ?_, ?_⟩
  · rw [hfiles]
    exact Entries.nodup_keys_erase h.keys f
  · rw [hfiles, Entries.get?_erase] at hf'
    split_ifs at hf'
    exact h.files f' es' hf'
  · rw [hall]
    simpa only [CallGraph.drop, foldl_removeEdge, edgesOf] using hcaller
  · rw [hall]
    simpa only [CallGraph.drop, foldl_removeEdge, edgesOf] using hcallee

end CallGraph
end SymbolAtlas
