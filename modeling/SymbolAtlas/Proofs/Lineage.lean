import Mathlib.Data.List.Dedup
import Mathlib.Data.List.Perm.Subperm
import SymbolAtlas.Proofs.SymbolId

/-!
# What assigning ids does

Assigning ids goes through the declarations one by one.  `Lineage.Pass.Sound` says what holds at
every point: the ids handed out so far are all different, a previous id is consumed exactly when
it is among them, and an id that is no previous one was not retired either.  One declaration keeps
it (`Pass.Sound.assignOne`), whatever the declaration.

For the declarations of an outline no container is missing (`containersBefore_ofText`), so each
is assigned an id and the previous ids not among them are retired in order
(`Lineage.assign_outline`).  The ids have the shape that their file and their container ask for
(`Lineage.Shaped.assignOne`), since a declaration carries over only an id of its own container.
-/

namespace SymbolAtlas

/-! ### Fresh ids -/

/-- Different suffixes make different ids. -/
theorem withSuffix_inj {id : String} {m n : Nat} (h : withSuffix id m = withSuffix id n) :
    m = n :=
  digits_inj (by simpa [withSuffix] using congrArg String.toList h)

/-- With as many tries as there are ids in use a free variant is found: every try that fails uses
up one of them. -/
theorem freeSuffix_free (inUse : String → Bool) (id : String) (fuel : Nat) :
    ∀ (n : Nat) (used : List String), used.length ≤ fuel →
      (∀ m, n ≤ m → inUse (withSuffix id m) = true → withSuffix id m ∈ used) →
      inUse (withSuffix id (freeSuffix inUse id fuel n)) = false := by
  induction fuel with
  | zero =>
    intro n used hlen hused
    obtain rfl := List.length_eq_zero_iff.mp (Nat.le_zero.mp hlen)
    rw [freeSuffix, ← Bool.not_eq_true]
    exact fun h => List.not_mem_nil (hused n (Nat.le_refl n) h)
  | succ fuel ih =>
    intro n used hlen hused
    rw [freeSuffix]
    split_ifs with hn
    · have hmem := hused n (Nat.le_refl n) hn
      refine ih (n + 1) (used.erase (withSuffix id n)) ?_ fun m hm hin => ?_
      · rw [List.length_erase_of_mem hmem]
        omega
      · have hne : withSuffix id m ≠ withSuffix id n := fun h => by
          have := withSuffix_inj h
          omega
        exact (List.mem_erase_of_ne hne).mpr (hused m (by omega) hin)
    · simpa using hn

namespace Lineage

variable {previous : List Symbol} {d : Declaration} {l : Lineage}
  {declarations : List Declaration}

@[simp] theorem noteSuffix_fileId (l : Lineage) (id : String) (n : Nat) :
    (l.noteSuffix id n).fileId = l.fileId := rfl

@[simp] theorem noteSuffix_capacity (l : Lineage) (id : String) (n : Nat) :
    (l.noteSuffix id n).capacity = l.capacity := rfl

@[simp] theorem noteSuffix_retired (l : Lineage) (id : String) (n : Nat) :
    (l.noteSuffix id n).retired = l.retired := rfl

/-- **A fresh id** is a variant of the one asked for and neither taken nor retired. -/
theorem unused_fresh (l : Lineage) (taken : List String) (id : String) :
    IsVariant id (l.unused taken id).1 ∧ (l.unused taken id).1 ∉ taken ∧
      (l.unused taken id).1 ∉ l.retired := by
  simp only [unused]
  split_ifs with h
  · have hfree := freeSuffix_free (fun x => taken.contains x || l.retired.contains x) id
      (taken.length + l.retired.length) ((l.suffixes.get? id).getD 2) (taken ++ l.retired)
      (by simp) fun m _ hm => by simpa using hm
    refine ⟨Or.inr ⟨_, rfl⟩, ?_⟩
    simpa using hfree
  · refine ⟨Or.inl rfl, ?_⟩
    simpa using h

theorem unused_lineage (l : Lineage) (taken : List String) (id : String) :
    (l.unused taken id).2.fileId = l.fileId ∧ (l.unused taken id).2.capacity = l.capacity ∧
      (l.unused taken id).2.retired = l.retired := by
  simp only [unused]
  split_ifs <;> simp

/-! ### One declaration -/

theorem lastWith_eq_some {symbols : List Symbol} {p : Symbol → Bool} {s : Symbol}
    (h : lastWith symbols p = some s) : s ∈ symbols ∧ p s = true :=
  ⟨List.mem_reverse.mp (List.mem_of_find?_eq_some h), List.find?_some h⟩

/-- A previous symbol that is continued was not consumed before, and is of the declaration's
kind, container and line. -/
theorem continued_eq_some {consumed : List String} {container : Option String} {s : Symbol}
    (h : continued previous declarations consumed d container = some s) :
    s ∈ previous ∧ s.id ∉ consumed ∧ s.kind = d.kind ∧ s.container = container ∧
      s.line = d.line := by
  simp only [continued] at h
  split at h
  · rename_i s' hs'
    obtain rfl := Option.some.inj h
    obtain ⟨hlast, hfree⟩ := Option.filter_eq_some_iff.mp hs'
    obtain ⟨hmem, hp⟩ := lastWith_eq_some hlast
    simp only [Bool.and_eq_true, decide_eq_true_eq] at hp
    exact ⟨hmem, by simpa using hfree, hp.1.1.1, hp.1.1.2, hp.1.2⟩
  · obtain ⟨hs', -⟩ := Option.filter_eq_some_iff.mp h
    obtain ⟨hlast, hfree⟩ := Option.filter_eq_some_iff.mp hs'
    obtain ⟨hmem, hp⟩ := lastWith_eq_some hlast
    simp only [Bool.and_eq_true, decide_eq_true_eq] at hp
    exact ⟨hmem, by simpa using hfree, hp.1.1, hp.1.2, hp.2⟩

/-- What holds while ids are assigned, starting from the lineage `l` and the symbols
`previous`. -/
structure Pass.Sound (l : Lineage) (previous : List Symbol) (p : Pass) : Prop where
  fileId : p.lineage.fileId = l.fileId
  capacity : p.lineage.capacity = l.capacity
  retired : p.lineage.retired = l.retired
  nodup : p.ids.Nodup
  taken : ∀ x, x ∈ p.taken ↔ x ∈ previous.map Symbol.id ∨ x ∈ p.ids
  consumed : ∀ x, x ∈ p.consumed ↔ x ∈ previous.map Symbol.id ∧ x ∈ p.ids
  fresh : ∀ x ∈ p.ids, x ∈ previous.map Symbol.id ∨ x ∉ l.retired

theorem Pass.sound_start (l : Lineage) (previous : List Symbol) :
    Pass.Sound l previous ⟨l, previous.map Symbol.id, [], []⟩ :=
  ⟨rfl, rfl, rfl, List.nodup_nil, by simp, by simp, by simp⟩

/-- The id that one declaration is given. -/
theorem Pass.assignOne_cases (previous : List Symbol) (declarations : List Declaration) (p : Pass)
    (d : Declaration) (container : Option String) :
    (∃ s, continued previous declarations p.consumed d container = some s ∧
      p.assignOne previous declarations d container =
        { p with consumed := s.id :: p.consumed, ids := p.ids ++ [s.id] }) ∨
    (∃ x lineage, p.lineage.unused p.taken (naturalId p.lineage.fileId d.name d.line container) =
        (x, lineage) ∧
      p.assignOne previous declarations d container =
        { p with lineage := lineage, taken := x :: p.taken, ids := p.ids ++ [x] }) := by
  unfold assignOne
  split
  · rename_i s hs
    exact Or.inl ⟨s, hs, rfl⟩
  · exact Or.inr ⟨_, _, rfl, rfl⟩

/-- **Assigning one more id keeps the pass sound.** -/
theorem Pass.Sound.assignOne {p : Pass} (h : p.Sound l previous) (declarations : List Declaration)
    (d : Declaration) (container : Option String) :
    (p.assignOne previous declarations d container).Sound l previous := by
  rcases p.assignOne_cases previous declarations d container with ⟨s, hs, heq⟩ | ⟨x, l', hx, heq⟩
  · obtain ⟨hmem, hfree, -⟩ := continued_eq_some hs
    have hprev : s.id ∈ previous.map Symbol.id := List.mem_map_of_mem hmem
    have hnew : s.id ∉ p.ids := fun hin => hfree ((h.consumed s.id).mpr ⟨hprev, hin⟩)
    rw [heq]
    refine ⟨h.fileId, h.capacity, h.retired, ?_, fun y => ?_, fun y => ?_, fun y hy => ?_⟩
    · rw [← List.concat_eq_append]
      exact h.nodup.concat hnew
    · simp only [h.taken y, List.mem_append, List.mem_singleton]
      exact ⟨fun hy => hy.imp_right Or.inl,
        fun hy => hy.elim Or.inl fun hy => hy.elim Or.inr fun hy => Or.inl (hy ▸ hprev)⟩
    · rw [List.mem_cons, h.consumed y, List.mem_append, List.mem_singleton]
      constructor
      · rintro (rfl | hy)
        · exact ⟨hprev, Or.inr rfl⟩
        · exact ⟨hy.1, Or.inl hy.2⟩
      · rintro ⟨hy, hin | rfl⟩
        · exact Or.inr ⟨hy, hin⟩
        · exact Or.inl rfl
    · rcases List.mem_append.mp hy with hy | hy
      · exact h.fresh y hy
      · exact Or.inl ((List.mem_singleton.mp hy) ▸ hprev)
  · have hfresh := unused_fresh p.lineage p.taken
      (naturalId p.lineage.fileId d.name d.line container)
    have hl' := unused_lineage p.lineage p.taken
      (naturalId p.lineage.fileId d.name d.line container)
    rw [hx] at hfresh hl'
    obtain ⟨-, htaken, hretired⟩ := hfresh
    have hnot := not_or.mp (mt (h.taken x).mpr htaken)
    rw [heq]
    refine ⟨hl'.1.trans h.fileId, hl'.2.1.trans h.capacity, hl'.2.2.trans h.retired, ?_,
      fun y => ?_, fun y => ?_, fun y hy => ?_⟩
    · rw [← List.concat_eq_append]
      exact h.nodup.concat hnot.2
    · rw [List.mem_cons, h.taken y, List.mem_append, List.mem_singleton]
      tauto
    · simp only [h.consumed y, List.mem_append, List.mem_singleton]
      refine ⟨fun hy => ⟨hy.1, Or.inl hy.2⟩, ?_⟩
      rintro ⟨hy, hin | rfl⟩
      · exact ⟨hy, hin⟩
      · exact absurd hy hnot.1
    · rcases List.mem_append.mp hy with hy | hy
      · exact h.fresh y hy
      · exact Or.inr ((List.mem_singleton.mp hy) ▸ h.retired ▸ hretired)

/-! ### All declarations -/

/-- The containers of the declarations point at declarations before them. -/
def ContainersBefore (declarations : List Declaration) : Prop :=
  ∀ before d after, declarations = before ++ d :: after →
    ∀ c, d.container = some c → c < before.length

theorem containerId_of_lt {ids : List String} (h : ∀ c, d.container = some c → c < ids.length) :
    containerId ids d = .ok (d.container.bind (ids[·]?)) := by
  unfold containerId
  cases hc : d.container with
  | none => rfl
  | some c => simp [List.getElem?_eq_getElem (h c hc)]

/-- **Where containers come first every declaration is assigned an id.**  Any property `P` of a
pass and the declarations done that one declaration keeps holds at the end; the induction is on the
declarations left. -/
theorem Pass.assignAll_induction (P : List Declaration → Pass → Prop)
    (step : ∀ before d after p, declarations = before ++ d :: after → P before p →
      P (before ++ [d]) (p.assignOne previous declarations d (d.container.bind (p.ids[·]?))))
    (hc : ContainersBefore declarations) (rest : List Declaration) :
    ∀ before p, declarations = before ++ rest → P before p → p.ids.length = before.length →
      ∃ p', p.assignAll previous declarations rest = (p', none) ∧ P declarations p' ∧
        p'.ids.length = declarations.length := by
  induction rest with
  | nil =>
    intro before p hdecl hp hlen
    rw [List.append_nil] at hdecl
    exact ⟨p, rfl, hdecl ▸ hp, hdecl ▸ hlen⟩
  | cons d rest ih =>
    intro before p hdecl hp hlen
    have hcontainer := containerId_of_lt fun c h => hlen ▸ hc before d rest hdecl c h
    simp only [Pass.assignAll, hcontainer]
    refine ih (before ++ [d]) _ (by simpa using hdecl) (step before d rest p hdecl hp) ?_
    rcases p.assignOne_cases previous declarations d (d.container.bind (p.ids[·]?)) with
      ⟨s, -, heq⟩ | ⟨x, l', -, heq⟩ <;> simp [heq, hlen]

/-- The retired ids once one more is retired. -/
def keepRecent (capacity : Int) (retired : List String) (id : String) : List String :=
  let all := retired.filter (· ≠ id) ++ [id]
  all.drop (all.length - capacity.toNat)

theorem foldl_retire (gone : List String) (l : Lineage) :
    (gone.foldl retire l).fileId = l.fileId ∧ (gone.foldl retire l).capacity = l.capacity ∧
      (gone.foldl retire l).retired = gone.foldl (keepRecent l.capacity) l.retired := by
  induction gone generalizing l with
  | nil => exact ⟨rfl, rfl, rfl⟩
  | cons id gone ih => exact ih (l.retire id)

/-- With room for all ids none has to be forgotten when one more of them is retired. -/
theorem fits_of_room {capacity : Int} {all : List String}
    (hall : (all.dedup.length : Int) ≤ capacity) {retired : List String} (hretired : retired ⊆ all)
    (hnodup : retired.Nodup) {id : String} (hid : id ∈ all) :
    (retired.filter (· ≠ id) ++ [id]).Nodup ∧ retired.filter (· ≠ id) ++ [id] ⊆ all ∧
      (retired.filter (· ≠ id) ++ [id]).length - capacity.toNat = 0 := by
  have hrest : (retired.filter (· ≠ id) ++ [id]).Nodup := by
    rw [← List.concat_eq_append]
    exact (hnodup.filter _).concat (by simp)
  have hsub : retired.filter (· ≠ id) ++ [id] ⊆ all := by
    intro x hx
    rcases List.mem_append.mp hx with hx | hx
    · exact hretired (List.mem_filter.mp hx).1
    · exact List.mem_singleton.mp hx ▸ hid
  have hlen := (hrest.subperm fun x hx => List.mem_dedup.mpr (hsub hx)).length_le
  exact ⟨hrest, hsub, by omega⟩

/-- With room for all of them the ids that are retired are all remembered. -/
theorem foldl_keepRecent {capacity : Int} {all : List String}
    (hall : (all.dedup.length : Int) ≤ capacity) {gone : List String} (hgone : gone ⊆ all)
    {retired : List String} (hretired : retired ⊆ all) (hnodup : retired.Nodup) :
    (gone.foldl (keepRecent capacity) retired).Nodup ∧
      ∀ x, x ∈ gone.foldl (keepRecent capacity) retired ↔ x ∈ retired ∨ x ∈ gone := by
  induction gone generalizing retired with
  | nil => exact ⟨hnodup, by simp⟩
  | cons id gone ih =>
    obtain ⟨hid, hgone⟩ := List.cons_subset.mp hgone
    obtain ⟨hrest, hsub, hzero⟩ := fits_of_room hall hretired hnodup hid
    have hmem : ∀ x, x ∈ retired.filter (· ≠ id) ++ [id] ↔ x ∈ retired ∨ x = id := by
      intro x
      by_cases hx : x = id <;> simp [hx]
    have hkeep : keepRecent capacity retired id = retired.filter (· ≠ id) ++ [id] := by
      simp only [keepRecent, hzero, List.drop_zero]
    rw [List.foldl_cons, hkeep]
    obtain ⟨hnodup', hmem'⟩ := ih hgone hsub hrest
    refine ⟨hnodup', fun x => ?_⟩
    rw [hmem', hmem, List.mem_cons, or_assoc]

theorem retireAll_fileId (l : Lineage) (gone : List String) :
    (l.retireAll gone).2.fileId = l.fileId := by
  cases gone with
  | nil => rfl
  | cons id gone =>
    simp only [retireAll]
    split_ifs
    · rfl
    · exact (foldl_retire (id :: gone) l).1

/-- Ids can be retired unless the capacity is negative. -/
theorem retireAll_of_nonneg (h : 0 ≤ l.capacity) (gone : List String) :
    l.retireAll gone = (.ok (), gone.foldl retire l) := by
  cases gone with
  | nil => rfl
  | cons id gone => simp [retireAll, Int.not_lt.mpr h]

/-- The ids of the declarations in a snapshot, none if there is no snapshot. -/
def previousIds (previous : Option Snapshot) : List String :=
  ((previous.map Snapshot.declared).getD []).map Symbol.id

/-- The previous ids that are not among the new ones. -/
def goneIds (previous : Option Snapshot) (ids : List String) : List String :=
  (previousIds previous).filter (· ∉ ids)

/-- **Where containers come first every declaration is assigned an id**, and what is left to do
is to retire the previous ids that are gone.  A property `P` of a pass and the declarations done
that one declaration keeps holds at the end. -/
theorem assign_eq (l : Lineage) (previous : Option Snapshot) (hc : ContainersBefore declarations)
    (P : List Declaration → Pass → Prop) (start : P [] ⟨l, previousIds previous, [], []⟩)
    (step : ∀ before d after p, declarations = before ++ d :: after →
      p.Sound l ((previous.map Snapshot.declared).getD []) → P before p →
      P (before ++ [d]) (p.assignOne ((previous.map Snapshot.declared).getD []) declarations d
        (d.container.bind (p.ids[·]?)))) :
    ∃ p : Pass, p.Sound l ((previous.map Snapshot.declared).getD []) ∧
      p.ids.length = declarations.length ∧ P declarations p ∧
      l.assign declarations previous =
        ((p.lineage.retireAll (goneIds previous p.ids)).1.map fun _ => p.ids,
          (p.lineage.retireAll (goneIds previous p.ids)).2) := by
  obtain ⟨p, hall, ⟨hsound, hP⟩, hlen⟩ := Pass.assignAll_induction
    (fun before p => p.Sound l ((previous.map Snapshot.declared).getD []) ∧ P before p)
    (fun before d after p hdecl hp => ⟨hp.1.assignOne declarations d _,
      step before d after p hdecl hp.1 hp.2⟩) hc declarations [] _ rfl
    ⟨Pass.sound_start l _, start⟩ rfl
  have hgone : (((previous.map Snapshot.declared).getD []).map Symbol.id).filter
      (fun id => !p.consumed.contains id) = goneIds previous p.ids := by
    refine List.filter_congr fun x hx => ?_
    simp [hsound.consumed x, hx]
  refine ⟨p, hsound, hlen, hP, ?_⟩
  simp only [assign, hall, hgone]

/-- What assigning the ids `ids` does to a lineage. -/
structure Assigned (l : Lineage) (declarations : List Declaration) (previous : Option Snapshot)
    (ids : List String) (l' : Lineage) : Prop where
  length : ids.length = declarations.length
  nodup : ids.Nodup
  fresh : ∀ x ∈ ids, x ∈ previousIds previous ∨ x ∉ l.retired
  fileId : l'.fileId = l.fileId
  capacity : l'.capacity = l.capacity
  retired : l'.retired = (goneIds previous ids).foldl (keepRecent l.capacity) l.retired

/-! ### Outlines -/

/-- Classes come before their members. -/
theorem containersBefore_ofText (t : Text) : ContainersBefore (Outline.ofText t).declarations := by
  intro before d after h c hc
  obtain ⟨k, hk, -⟩ := (Outline.placed_of_mem t h).container c hc
  exact (List.getElem?_eq_some_iff.mp hk).1

/-- The id that a file asks for in a symbol with or without container. -/
def HasShape (fileId : String) (contained : Bool) (x : String) : Prop :=
  if contained then IsMemberId fileId x else IsTopId fileId x

/-- The symbols of a file bear ids of that file, each of the shape that its place asks for. -/
def Identified (fileId : String) (snapshot : Snapshot) : Prop :=
  ∀ s ∈ snapshot.symbols, (s.kind = .file → s.id = fileSymbolId fileId) ∧
    (s.kind ≠ .file → HasShape fileId s.container.isSome s.id)

/-- The ids of the declarations done have their shapes. -/
def Shaped (fileId : String) (done : List Declaration) (ids : List String) : Prop :=
  ids.length = done.length ∧ ∀ (i : Nat) (d : Declaration) (x : String), done[i]? = some d →
    ids[i]? = some x → HasShape fileId d.container.isSome x

theorem Shaped.append {f : String} {done : List Declaration} {ids : List String}
    (h : Shaped f done ids) {x : String} (hx : HasShape f d.container.isSome x) :
    Shaped f (done ++ [d]) (ids ++ [x]) := by
  refine ⟨by simp [h.1], fun i e y he hy => ?_⟩
  by_cases hi : i < done.length
  · rw [List.getElem?_append_left hi] at he
    rw [List.getElem?_append_left (h.1 ▸ hi)] at hy
    exact h.2 i e y he hy
  · have hlen := (List.getElem?_eq_some_iff.mp he).1
    simp only [List.length_append, List.length_singleton] at hlen
    obtain rfl : i = done.length := by omega
    rw [List.getElem?_concat_length] at he
    rw [← h.1, List.getElem?_concat_length] at hy
    obtain rfl := Option.some.inj he
    obtain rfl := Option.some.inj hy
    exact hx

/-- One more declaration of an outline is given an id of its shape: a fresh id by its making, and
one carried over because its symbol had a container exactly when the declaration has one. -/
theorem Shaped.assignOne {f : String} (hl : l.fileId = f) {t : Text}
    (hprev : ∀ s ∈ previous, HasShape f s.container.isSome s.id) {before after : List Declaration}
    {p : Pass} (hdecl : (Outline.ofText t).declarations = before ++ d :: after)
    (hp : p.Sound l previous) (h : Shaped f before p.ids) :
    Shaped f (before ++ [d])
      (p.assignOne previous (Outline.ofText t).declarations d
        (d.container.bind (p.ids[·]?))).ids := by
  have hplaced := Outline.placed_of_mem t hdecl
  -- the container of a member has an id, and that of a declaration without container
  have hcontainer : ∀ c, d.container = some c → ∃ x, p.ids[c]? = some x ∧ IsTopId f x := by
    intro c hc
    obtain ⟨k, hk, -, hkc⟩ := hplaced.container c hc
    have hlt := h.1 ▸ (List.getElem?_eq_some_iff.mp hk).1
    refine ⟨p.ids[c], List.getElem?_eq_getElem hlt, ?_⟩
    simpa [HasShape, hkc] using h.2 c k p.ids[c] hk (List.getElem?_eq_getElem hlt)
  have hsome : (d.container.bind (p.ids[·]?)).isSome = d.container.isSome := by
    cases hc : d.container with
    | none => rfl
    | some c =>
      obtain ⟨x, hx, -⟩ := hcontainer c hc
      simp [hx]
  rcases p.assignOne_cases previous (Outline.ofText t).declarations d
    (d.container.bind (p.ids[·]?)) with ⟨s, hs, heq⟩ | ⟨x, l', hx, heq⟩
  · obtain ⟨hmem, -, -, hsc, -⟩ := continued_eq_some hs
    rw [heq]
    refine h.append ?_
    have := hprev s hmem
    rwa [hsc, hsome] at this
  · obtain ⟨hvar, -⟩ := unused_fresh p.lineage p.taken
      (naturalId p.lineage.fileId d.name d.line (d.container.bind (p.ids[·]?)))
    rw [hx, hp.fileId, hl] at hvar
    have hline : (0 : Int) ≤ d.line := by
      have := hplaced.line_pos
      omega
    rw [heq]
    refine h.append ?_
    cases hc : d.container with
    | none =>
      rw [hc] at hvar
      exact ⟨d.name, d.line, hplaced.named, hline, hvar⟩
    | some c =>
      obtain ⟨k, hk, hktop⟩ := hcontainer c hc
      rw [hc, Option.bind_some, hk] at hvar
      exact ⟨d.name, d.line, k, hplaced.named, hline, hktop, hvar⟩

/-- **The declarations of a text are assigned ids** if ids can be retired. -/
theorem assign_outline (hcap : 0 ≤ l.capacity) (t : Text) (previous : Option Snapshot) :
    ∃ ids l', l.assign (Outline.ofText t).declarations previous = (.ok ids, l') ∧
      Assigned l (Outline.ofText t).declarations previous ids l' := by
  obtain ⟨p, hp, hlen, -, h⟩ := assign_eq l previous
    (containersBefore_ofText t) (fun _ _ => True) trivial fun _ _ _ _ _ _ _ => trivial
  rw [retireAll_of_nonneg (hp.capacity ▸ hcap)] at h
  have hretire := foldl_retire (goneIds previous p.ids) p.lineage
  refine ⟨p.ids, _, h, hlen, hp.nodup, hp.fresh, hretire.1.trans hp.fileId,
    hretire.2.1.trans hp.capacity, ?_⟩
  rw [hretire.2.2, hp.capacity, hp.retired]

end Lineage
end SymbolAtlas
