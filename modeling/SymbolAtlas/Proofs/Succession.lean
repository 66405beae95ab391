import SymbolAtlas.Proofs.CarryOver
import SymbolAtlas.Proofs.RetirementMemory

/-!
# Which symbol a declaration succeeds

Ids are assigned in document order, and an id that is carried over is not carried over again.  Still
the outcome can be told without any order (`Lineage.Succeeds`): a declaration succeeds the previous
symbol of its kind, on its line and in its container, if that symbol has its name, or if nothing
bore the new name before and nothing bears the old one now.

The reason is that an outline has one declaration on a line.  So at most one symbol is in question,
the scan finds it if it was not consumed (`Lineage.continued_eq_some_iff`), and whatever consumed it
would stand on the same line (`Lineage.Succession.assignOne`).  The containers take care of
themselves, since they come before what they contain and have their ids by then.
-/

namespace SymbolAtlas
namespace Lineage

variable {ids : List String} {d : Document} {c : Snapshot} {s : Symbol}

/-! ### The rule -/

/-- The declaration `d`, whose container has the id `container`, succeeds the symbol `s`: it stands
in its place, under its name or under one that is new while the old one is gone. -/
structure Succeeds (previous : List Symbol) (declarations : List Declaration) (d : Declaration)
    (container : Option String) (s : Symbol) : Prop where
  line : s.line = d.line
  kind : s.kind = d.kind
  container : s.container = container
  name : s.name = d.name ∨ (∀ x ∈ previous, x.kind = d.kind → x.name ≠ d.name) ∧
    ∀ e ∈ declarations, e.kind = d.kind → e.name ≠ s.name

instance (previous : List Symbol) (declarations : List Declaration) (d : Declaration)
    (container : Option String) (s : Symbol) :
    Decidable (Succeeds previous declarations d container s) :=
  decidable_of_iff (s.line = d.line ∧ s.kind = d.kind ∧ s.container = container ∧
      (s.name = d.name ∨ (∀ x ∈ previous, x.kind = d.kind → x.name ≠ d.name) ∧
        ∀ e ∈ declarations, e.kind = d.kind → e.name ≠ s.name))
    ⟨fun ⟨h₁, h₂, h₃, h₄⟩ => ⟨h₁, h₂, h₃, h₄⟩, fun ⟨h₁, h₂, h₃, h₄⟩ => ⟨h₁, h₂, h₃, h₄⟩⟩

section

variable {previous : List Symbol} {declarations : List Declaration} {consumed : List String}
  {d : Declaration} {container : Option String} {s : Symbol}

/-- What the scan finds is succeeded by the rule. -/
theorem succeeds_of_continued
    (h : continued previous declarations consumed d container = some s) :
    Succeeds previous declarations d container s := by
  obtain ⟨-, -, hkind, hcontainer, hline⟩ := continued_eq_some h
  refine ⟨hline, hkind, hcontainer, ?_⟩
  simp only [continued] at h
  split at h
  · rename_i s' hs'
    obtain rfl := Option.some.inj h
    have hp := (lastWith_eq_some (Option.filter_eq_some_iff.mp hs').1).2
    simp only [Bool.and_eq_true, decide_eq_true_eq] at hp
    exact Or.inl hp.2
  · have hnames := (Option.filter_eq_some_iff.mp h).2
    rw [Bool.and_eq_true, Bool.not_eq_true', Bool.not_eq_true'] at hnames
    refine Or.inr ⟨by simpa using hnames.1, ?_⟩
    rw [← hkind]
    simpa using hnames.2

/-- **With one symbol on each line the scan finds what is succeeded by the rule**, unless it is
consumed. -/
theorem continued_eq_some_iff (halone : ∀ x ∈ previous, ∀ y ∈ previous, y.line = x.line → y = x) :
    continued previous declarations consumed d container = some s ↔
      s ∈ previous ∧ s.id ∉ consumed ∧ Succeeds previous declarations d container s := by
  constructor
  · intro h
    obtain ⟨hmem, hfree, -⟩ := continued_eq_some h
    exact ⟨hmem, hfree, succeeds_of_continued h⟩
  · rintro ⟨hmem, hfree, h⟩
    refine continued_of_place hmem hfree h.kind h.container h.line
      (fun x hx hline => halone s hmem x hx (hline.trans h.line.symm)) fun hne => ?_
    obtain ⟨hnew, hgone⟩ := h.name.resolve_left hne
    exact ⟨hnew, fun e he hkind => hgone e he (hkind.trans h.kind)⟩

end

/-! ### One pass -/

/-- The ids of the declarations `done` are carried over by the rule. -/
def Succession (previous : List Symbol) (declarations done : List Declaration)
    (ids : List String) : Prop :=
  ∀ e ∈ done.zip ids, ∀ s ∈ previous, e.2 = s.id ↔
    Succeeds previous declarations e.1 (e.1.container.bind (ids[·]?)) s

/-- The declarations of a text before one of them are on other lines. -/
theorem line_ne_of_mem_before {t : Text} {before after : List Declaration} {d e : Declaration}
    (hdecl : (Outline.ofText t).declarations = before ++ d :: after) (he : e ∈ before) :
    e.line ≠ d.line := by
  have hsorted := Outline.lines_sorted t
  rw [hdecl, List.map_append, List.map_cons, List.pairwise_append] at hsorted
  exact Int.ne_of_lt (hsorted.2.2 _ (List.mem_map_of_mem he) _ (List.mem_cons_self ..))

theorem eq_of_id_eq (hdrawn : c.DrawnFrom d ids) {s' : Symbol} (hs : s ∈ c.declared)
    (hs' : s' ∈ c.declared) (h : s.id = s'.id) : s = s' :=
  List.inj_on_of_nodup_map (hdrawn.declaredIds.symm ▸ hdrawn.nodup) hs hs' h

section

variable {l : Lineage} {t : Text} {c : Snapshot} {before after : List Declaration}
  {e : Declaration} {p : Pass} (hdecl : (Outline.ofText t).declarations = before ++ e :: after)
  (hp : p.Sound l c.declared) (hlen : p.ids.length = before.length)
  (h : Succession c.declared (Outline.ofText t).declarations before p.ids)
include hdecl hp hlen h

/-- What a declaration succeeds was not consumed: whatever consumed it stands on its line. -/
theorem Succession.notMem_consumed (hs : s ∈ c.declared) (hline : s.line = e.line) :
    s.id ∉ p.consumed := by
  intro hconsumed
  obtain ⟨i, hi⟩ := List.mem_iff_getElem?.mp ((hp.consumed s.id).mp hconsumed).2
  have hlt : i < before.length := hlen ▸ (List.getElem?_eq_some_iff.mp hi).1
  have hzip : (before[i], s.id) ∈ before.zip p.ids :=
    List.mem_iff_getElem?.mpr
      ⟨i, List.getElem?_zip_eq_some.mpr ⟨List.getElem?_eq_getElem hlt, hi⟩⟩
  have hsame := ((h _ hzip s hs).mp rfl).line
  exact line_ne_of_mem_before hdecl (List.getElem_mem hlt) (hsame.symm.trans hline)

/-- **One more declaration is given the id of the symbol that it succeeds**, and of no other. -/
theorem Succession.assignOne (hdrawn : c.DrawnFrom d ids) :
    Succession c.declared (Outline.ofText t).declarations (before ++ [e])
      (p.assignOne c.declared (Outline.ofText t).declarations e
        (e.container.bind (p.ids[·]?))).ids := by
  have hc := containersBefore_ofText t
  have halone : ∀ x ∈ c.declared, ∀ y ∈ c.declared, y.line = x.line → y = x :=
    fun x hx y hy hline => hdrawn.alone hx y hy hline
  -- the id that the declaration is given is that of a symbol exactly if the rule says so
  have hadd : ∀ x, (∀ s ∈ c.declared, x = s.id ↔ Succeeds c.declared
      (Outline.ofText t).declarations e (e.container.bind (p.ids[·]?)) s) →
      Succession c.declared (Outline.ofText t).declarations (before ++ [e]) (p.ids ++ [x]) := by
    intro x hx y hy
    rw [List.zip_append hlen.symm] at hy
    rcases List.mem_append.mp hy with hy | hy
    · rw [bind_container_append fun k hk =>
        hlen ▸ hc.lt_length hdecl (List.of_mem_zip hy).1 hk]
      exact h y hy
    · obtain rfl : y = (e, x) := by simpa using hy
      rw [bind_container_append fun k hk => hlen ▸ hc before e after hdecl k hk]
      exact hx
  rcases p.assignOne_cases c.declared (Outline.ofText t).declarations e
    (e.container.bind (p.ids[·]?)) with ⟨s₀, hs₀, heq⟩ | ⟨x, l', hx, heq⟩
  · obtain ⟨hmem₀, -, hsucceeds₀⟩ := (continued_eq_some_iff halone).mp hs₀
    rw [heq]
    refine hadd s₀.id fun s hs => ⟨fun hid => ?_, fun hsucceeds => ?_⟩
    · exact eq_of_id_eq hdrawn hmem₀ hs hid ▸ hsucceeds₀
    · rw [halone s hs s₀ hmem₀ (hsucceeds₀.line.trans hsucceeds.line.symm)]
  · obtain ⟨-, htaken, -⟩ := unused_fresh p.lineage p.taken
      (naturalId p.lineage.fileId e.name e.line (e.container.bind (p.ids[·]?)))
    rw [hx] at htaken
    rw [heq]
    refine hadd x fun s hs => ⟨fun hid => ?_, fun hsucceeds => ?_⟩
    · exact absurd ((hp.taken x).mpr (Or.inl (hid ▸ List.mem_map_of_mem hs))) htaken
    · -- the scan would have found the symbol
      have hfound : continued c.declared (Outline.ofText t).declarations p.consumed e
          (e.container.bind (p.ids[·]?)) = some s := (continued_eq_some_iff halone).mpr
        ⟨hs, h.notMem_consumed hdecl hp hlen hs hsucceeds.line, hsucceeds⟩
      have hids := congrArg Pass.ids heq
      simp only [Pass.assignOne, hfound] at hids
      simpa [eq_comm] using hids

end

/-! ### What is retired -/

/-- The ids that were retired last are remembered, as many as there is room for. -/
theorem rtake_suffix_foldl_keepRecent (capacity : Int) (retired : List String) {gone : List String}
    (h : gone.Nodup) :
    gone.rtake capacity.toNat <:+ gone.foldl (keepRecent capacity) retired := by
  induction gone using List.reverseRecOn with
  | nil => rw [List.rtake_nil]; exact List.nil_suffix
  | append_singleton gone id ih =>
    obtain ⟨hgone, -, hid⟩ := List.nodup_append.mp h
    have hrecent := ih hgone
    rw [List.foldl_append, List.foldl_cons, List.foldl_nil]
    show _ <:+ List.rtake (List.filter (· ≠ id) _ ++ [id]) _
    cases hn : capacity.toNat with
    | zero => rw [List.rtake_zero]; exact List.nil_suffix
    | succ m =>
      rw [hn] at hrecent
      -- the `m` before the last one are among those that were remembered before
      have hlast : gone.rtake m <:+
          (gone.foldl (keepRecent capacity) retired).filter (· ≠ id) := by
        have hfewer : gone.rtake m <:+ gone.rtake (m + 1) :=
          List.drop_suffix_drop_left gone (by omega)
        have hself : (gone.rtake m).filter (· ≠ id) = gone.rtake m :=
          List.filter_eq_self.mpr fun x hx => decide_eq_true
            (hid x (List.mem_of_mem_drop hx) id (List.mem_singleton_self id))
        exact hself ▸ (hfewer.trans hrecent).filter (· ≠ id)
      have hlength : (gone.rtake m).length ≤
          (((gone.foldl (keepRecent capacity) retired).filter (· ≠ id)).rtake m).length := by
        have := hlast.length_le
        rw [List.rtake, List.length_drop] at this ⊢
        rw [List.rtake, List.length_drop]
        omega
      obtain ⟨front, hfront⟩ :=
        List.suffix_of_suffix_length_le hlast (List.drop_suffix _ _) hlength
      rw [List.rtake_concat_succ, List.rtake_concat_succ]
      exact ⟨front, by rw [← List.append_assoc, hfront]; rfl⟩

/-! ### Passes by the rule -/

/-- What the ids of some declarations and the lineage after them have to do with the snapshot
before. -/
structure ByRule (l : Lineage) (c : Snapshot) (declarations : List Declaration)
    (ids : List String) (l' : Lineage) : Prop where
  length : ids.length = declarations.length
  carried : Succession c.declared declarations declarations ids
  unique : ∀ d container, ∀ s ∈ c.declared, ∀ s' ∈ c.declared,
    Succeeds c.declared declarations d container s →
      Succeeds c.declared declarations d container s' → s = s'
  /-- An id is gone if no declaration succeeds its symbol. -/
  gone : ∀ s ∈ c.declared, s.id ∈ goneIds (some c) ids ↔ ∀ e ∈ declarations.zip ids,
    ¬ Succeeds c.declared declarations e.1 (e.1.container.bind (ids[·]?)) s
  /-- What is gone is retired one after the other, and remembered if there is room. -/
  retired : 0 ≤ l.capacity →
    l'.retired = (goneIds (some c) ids).foldl (keepRecent l.capacity) l.retired ∧
      (goneIds (some c) ids).rtake l.capacity.toNat <:+ l'.retired

theorem Succession.mem_goneIds_iff {declarations : List Declaration}
    (h : Succession c.declared declarations declarations ids)
    (hlen : ids.length = declarations.length) (hs : s ∈ c.declared) :
    s.id ∈ goneIds (some c) ids ↔ ∀ e ∈ declarations.zip ids,
      ¬ Succeeds c.declared declarations e.1 (e.1.container.bind (ids[·]?)) s := by
  have hprev : s.id ∈ previousIds (some c) := List.mem_map_of_mem hs
  have hsnd : (declarations.zip ids).map Prod.snd = ids := List.map_snd_zip (Nat.le_of_eq hlen)
  rw [goneIds, List.mem_filter, decide_eq_true_eq]
  constructor
  · rintro ⟨-, hout⟩ e he hsucceeds
    exact hout (((h e he s hs).mpr hsucceeds) ▸ (List.of_mem_zip he).2)
  · refine fun hnone => ⟨hprev, fun hin => ?_⟩
    rw [← hsnd] at hin
    obtain ⟨e, he, hid⟩ := List.mem_map.mp hin
    exact hnone e he ((h e he s hs).mp hid)

theorem exists_byRule (l : Lineage) (t : Text) (hdrawn : c.DrawnFrom d ids) :
    ∃ ids, (l.assign (Outline.ofText t).declarations (some c)).1 =
        (if l.capacity < 0 ∧ goneIds (some c) ids ≠ [] then .error .noRoom else .ok ids) ∧
      ByRule l c (Outline.ofText t).declarations ids
        (l.assign (Outline.ofText t).declarations (some c)).2 := by
  obtain ⟨p, hp, hlen, ⟨-, hrule⟩, heq⟩ := assign_eq l (some c) (containersBefore_ofText t)
    (fun done p => p.ids.length = done.length ∧
      Succession c.declared (Outline.ofText t).declarations done p.ids)
    ⟨rfl, fun e he => by simp at he⟩ fun before e after p hdecl hp ⟨hlen, hrule⟩ => by
      refine ⟨?_, hrule.assignOne hdecl hp hlen hdrawn⟩
      rcases p.assignOne_cases c.declared (Outline.ofText t).declarations e
        (e.container.bind (p.ids[·]?)) with ⟨s, -, heq⟩ | ⟨x, l', -, heq⟩
      · simp only [Option.map_some, Option.getD_some, heq, List.length_append, hlen]
        rfl
      · simp only [Option.map_some, Option.getD_some, heq, List.length_append, hlen]
        rfl
  refine ⟨p.ids, ?_, hlen, hrule, ?_, fun s hs => hrule.mem_goneIds_iff hlen hs, fun hcap => ?_⟩
  · rw [heq, retireAll_fst, hp.capacity]
    split_ifs <;> rfl
  · intro e container s hs s' hs' hsucceeds hsucceeds'
    exact hdrawn.alone hs' s hs (hsucceeds.line.trans hsucceeds'.line.symm)
  · have hids : previousIds (some c) = ids := hdrawn.declaredIds
    have hgone : (goneIds (some c) p.ids).Nodup := (hids ▸ hdrawn.nodup).filter _
    rw [heq, retireAll_of_nonneg (hp.capacity ▸ hcap)]
    dsimp only
    rw [(foldl_retire _ _).2.2, hp.capacity, hp.retired]
    exact ⟨rfl, rtake_suffix_foldl_keepRecent l.capacity l.retired hgone⟩

/-- **Ids are carried over by a rule that knows no order.**  Let the declarations of a text follow a
snapshot that was made of some text.  A declaration is given the id of a previous symbol exactly if
it succeeds that symbol, which is one symbol at most, and the previous symbols that are succeeded by
none are retired in order.  Only where the capacity is negative and an id has to be retired, none is
assigned. -/
theorem assign_by_succession (l : Lineage) (t : Text) (l₀ : Lineage) (previous : Option Snapshot)
    {d : Document} {ids₀ : List String} {c : Snapshot}
    (hids₀ : (l₀.assign (Outline.ofText d.content).declarations previous).1 = .ok ids₀)
    (hc : Snapshot.ofOutline d (Outline.ofText d.content) ids₀ = c) :
    ∃ ids, (l.assign (Outline.ofText t).declarations (some c)).1 =
        (if l.capacity < 0 ∧ goneIds (some c) ids ≠ [] then .error .noRoom else .ok ids) ∧
      ByRule l c (Outline.ofText t).declarations ids
        (l.assign (Outline.ofText t).declarations (some c)).2 :=
  exists_byRule l t (hc ▸ drawnFrom_of_assign (Prod.ext hids₀ rfl))

/-- A class with a method, and two functions. -/
def classAndFunctions : Document :=
  ⟨"a.ts", ("class K \x7b\n" ++ "  run() {}\n" ++ "\x7d\nfunction a() {}\nfunction b() {}").toList,
    "typescript", 1⟩

/-- The method has got another name.  So have the functions, but `b` was there before and still
is. -/
def renamedAndMoved : Text :=
  ("class K \x7b\n" ++ "  start() {}\n" ++ "\x7d\nfunction b() {}\nfunction c() {}").toList

/-- The method keeps its id, and the functions get new ones. -/
theorem renamedAndMoved_by_succession :
    let ids₀ := ["a.ts::K@1", "a.ts::run@a.ts::K@1@2", "a.ts::a@4", "a.ts::b@5"]
    let ids := ["a.ts::K@1", "a.ts::run@a.ts::K@1@2", "a.ts::b@4", "a.ts::c@5"]
    let c := Snapshot.ofOutline classAndFunctions (Outline.ofText classAndFunctions.content) ids₀
    ((new "a.ts" 1).assign (Outline.ofText classAndFunctions.content).declarations none).1 =
        .ok ids₀ ∧
      ((new "a.ts" 1).assign (Outline.ofText renamedAndMoved).declarations (some c)).1 = .ok ids ∧
      ((new "a.ts" 1).assign (Outline.ofText renamedAndMoved).declarations (some c)).2.retired =
        ["a.ts::b@5"] ∧
      ByRule (new "a.ts" 1) c (Outline.ofText renamedAndMoved).declarations ids
        ((new "a.ts" 1).assign (Outline.ofText renamedAndMoved).declarations (some c)).2 := by
  intro ids₀ ids c
  have hids₀ : ((new "a.ts" 1).assign (Outline.ofText classAndFunctions.content).declarations
      none).1 = .ok ids₀ := by decide +kernel
  have hids : ((new "a.ts" 1).assign (Outline.ofText renamedAndMoved).declarations
      (some c)).1 = .ok ids := by decide +kernel
  obtain ⟨ids', hids', hrule⟩ := assign_by_succession (new "a.ts" 1) renamedAndMoved
    (new "a.ts" 1) none hids₀ (c := c) rfl
  rw [if_neg fun h => absurd h.1 (by decide), hids] at hids'
  obtain rfl : ids = ids' := Except.ok.inj hids'
  exact ⟨hids₀, hids, by decide +kernel, hrule⟩

/-- Two functions. -/
def twoFunctions : Document :=
  ⟨"a.ts", "function a() {}\nfunction b() {}".toList, "typescript", 1⟩

/-- A declaration that succeeds a symbol is not always given its id: with a negative capacity the
other function cannot be retired, and nothing is assigned. -/
theorem succession_without_room :
    let c := Snapshot.ofOutline twoFunctions (Outline.ofText twoFunctions.content)
      ["a.ts::a@1", "a.ts::b@2"]
    let declarations := (Outline.ofText "function a() {}".toList).declarations
    ((new "a.ts" (-1)).assign (Outline.ofText twoFunctions.content).declarations none).1 =
        .ok ["a.ts::a@1", "a.ts::b@2"] ∧
      (∃ d ∈ declarations, ∃ s ∈ c.declared, Succeeds c.declared declarations d none s) ∧
      ((new "a.ts" (-1)).assign declarations (some c)).1 = .error .noRoom := by
  decide +kernel

end Lineage
end SymbolAtlas
