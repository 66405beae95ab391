import SymbolAtlas.Proofs.Lineage

/-!
# One pass hands out no id twice

Whatever a lineage remembers, whatever was declared before and whatever is declared now, with
several declarations on one line or none, the ids that a pass hands out are all different, and each
of them has one of two origins (`Lineage.HandedOut`): it is carried over from a previous symbol that
stood in the declaration's place, or it is new, and then it is neither the id of a previous symbol
nor a retired one.

There are two ways to fail.  A declaration may have a container that does not come before it; then
nothing is retired.  And a lineage whose capacity is negative fails when a previous id is not
carried over, since no id can be retired (`Lineage.assign_without_room`).  Otherwise ids are
assigned (`Lineage.assign_never_repeats`).
-/

namespace SymbolAtlas
namespace Lineage

variable {after before declarations : List Declaration} {d : Declaration} {ids : List String}
  {l : Lineage}

/-! ### Where ids come from -/

/-- `x` is the id of a previous symbol with the kind and the line of a declaration, in the
container given. -/
def CarriedOver (previous : Option Snapshot) (d : Declaration) (container : Option String)
    (x : String) : Prop :=
  ∃ s ∈ (previous.map Snapshot.declared).getD [],
    s.id = x ∧ s.kind = d.kind ∧ s.line = d.line ∧ s.container = container

/-- `x` is neither the id of a previous symbol nor retired. -/
def IsNew (l : Lineage) (previous : Option Snapshot) (x : String) : Prop :=
  x ∉ previousIds previous ∧ x ∉ l.retired

/-- Each of the ids is carried over or new.  The container of a declaration is known by its id. -/
def HaveOrigins (l : Lineage) (previous : Option Snapshot) (declarations : List Declaration)
    (ids : List String) : Prop :=
  ∀ e ∈ declarations.zip ids,
    CarriedOver previous e.1 (e.1.container.bind (ids[·]?)) e.2 ∨ IsNew l previous e.2

/-- What holds of the ids of the declarations after a pass. -/
structure HandedOut (l : Lineage) (declarations : List Declaration) (previous : Option Snapshot)
    (ids : List String) : Prop where
  length : ids.length = declarations.length
  nodup : ids.Nodup
  origins : HaveOrigins l previous declarations ids

/-- The container of a declaration comes before all that follow the declaration. -/
theorem ContainersBefore.lt_length (hc : ContainersBefore declarations)
    (hdecl : declarations = before ++ after) (hd : d ∈ before) {c : Nat}
    (h : d.container = some c) : c < before.length := by
  obtain ⟨front, back, rfl⟩ := List.append_of_mem hd
  have hlt := hc front d (back ++ after) (by simpa using hdecl) c h
  rw [List.length_append]
  omega

/-- An id that is added at the end is no container of a declaration before. -/
theorem bind_container_append (h : ∀ c, d.container = some c → c < ids.length) (x : String) :
    d.container.bind ((ids ++ [x])[·]?) = d.container.bind (ids[·]?) := by
  cases hc : d.container with
  | none => rfl
  | some c => exact List.getElem?_append_left (h c hc)

/-- One more id, for the declaration `d`. -/
theorem HaveOrigins.append {previous : Option Snapshot} (h : HaveOrigins l previous before ids)
    (hc : ContainersBefore declarations) (hdecl : declarations = before ++ d :: after)
    (hlen : ids.length = before.length) {x : String}
    (hx : CarriedOver previous d (d.container.bind (ids[·]?)) x ∨ IsNew l previous x) :
    HaveOrigins l previous (before ++ [d]) (ids ++ [x]) := by
  intro e he
  rw [List.zip_append hlen.symm] at he
  rcases List.mem_append.mp he with he | he
  · rw [bind_container_append fun c h =>
      hlen ▸ hc.lt_length hdecl (List.of_mem_zip he).1 h]
    exact h e he
  · obtain rfl : e = (d, x) := by simpa using he
    rw [bind_container_append fun c h => hlen ▸ hc before d after hdecl c h]
    exact hx

/-- **One declaration is given an id of its own place or a new one.** -/
theorem HaveOrigins.assignOne {previous : Option Snapshot} {p : Pass}
    (hp : p.Sound l ((previous.map Snapshot.declared).getD []))
    (h : HaveOrigins l previous before p.ids) (hc : ContainersBefore declarations)
    (hdecl : declarations = before ++ d :: after) (hlen : p.ids.length = before.length) :
    HaveOrigins l previous (before ++ [d])
      (p.assignOne ((previous.map Snapshot.declared).getD []) declarations d
        (d.container.bind (p.ids[·]?))).ids := by
  rcases p.assignOne_cases ((previous.map Snapshot.declared).getD []) declarations d
    (d.container.bind (p.ids[·]?)) with ⟨s, hs, heq⟩ | ⟨x, l', hx, heq⟩
  · obtain ⟨hmem, -, hkind, hcontainer, hline⟩ := continued_eq_some hs
    rw [heq]
    exact h.append hc hdecl hlen (Or.inl ⟨s, hmem, rfl, hkind, hline, hcontainer⟩)
  · obtain ⟨-, htaken, hretired⟩ := unused_fresh p.lineage p.taken
      (naturalId p.lineage.fileId d.name d.line (d.container.bind (p.ids[·]?)))
    rw [hx] at htaken hretired
    have hnew : IsNew l previous x :=
      ⟨fun hin => htaken ((hp.taken x).mpr (Or.inl hin)), hp.retired ▸ hretired⟩
    rw [heq]
    exact h.append hc hdecl hlen (Or.inr hnew)

/-! ### Containers that are missing -/

/-- Containers come first if each index is below the index of its declaration. -/
theorem containersBefore_iff :
    ContainersBefore declarations ↔
      ∀ e ∈ declarations.zipIdx, e.1.container.all (· < e.2) = true := by
  constructor
  · rintro h ⟨d, i⟩ he
    have hi : declarations[i]? = some d := List.mem_zipIdx_iff_getElem?.mp he
    obtain ⟨hlt, rfl⟩ := List.getElem?_eq_some_iff.mp hi
    have hsplit : declarations =
        declarations.take i ++ declarations[i] :: declarations.drop (i + 1) := by
      rw [← List.drop_eq_getElem_cons hlt, List.take_append_drop]
    dsimp only
    cases hc : declarations[i].container with
    | none => rfl
    | some c =>
      have := h _ _ _ hsplit c hc
      rw [List.length_take, Nat.min_eq_left (Nat.le_of_lt hlt)] at this
      simpa using this
  · intro h before d after hdecl c hc
    have he : (d, before.length) ∈ declarations.zipIdx :=
      List.mem_zipIdx_iff_getElem?.mpr (by simp [hdecl])
    simpa [hc] using h _ he

instance (declarations : List Declaration) : Decidable (ContainersBefore declarations) :=
  decidable_of_iff _ containersBefore_iff.symm

theorem containerId_of_le {c : Nat} (h : d.container = some c) (hle : ids.length ≤ c) :
    containerId ids d = .error (.missingContainer c) := by
  unfold containerId
  rw [h]
  simp only [List.getElem?_eq_none hle]

/-- A pass stops at the first declaration whose container has no id yet.  The induction is on the
declarations left; those done before have their ids. -/
theorem Pass.assignAll_missing {previous : List Symbol} (declarations rest : List Declaration) :
    ∀ p : Pass, p.Sound l previous →
      (∃ before d after c, rest = before ++ d :: after ∧ d.container = some c ∧
        p.ids.length + before.length ≤ c) →
      ∃ p' c, p.assignAll previous declarations rest = (p', some (.missingContainer c)) ∧
        p'.Sound l previous := by
  induction rest with
  | nil =>
    rintro p - ⟨before, d, after, c, hrest, -⟩
    simp at hrest
  | cons e rest ih =>
    intro p hp ⟨before, d, after, c, hrest, hcontainer, hle⟩
    by_cases he : ∀ c, e.container = some c → c < p.ids.length
    · simp only [Pass.assignAll, containerId_of_lt he]
      refine ih _ (hp.assignOne declarations e _) ?_
      cases before with
      | nil =>
        obtain ⟨rfl, -⟩ := List.cons.inj hrest
        have := he c hcontainer
        rw [List.length_nil] at hle
        omega
      | cons b before =>
        obtain ⟨-, hrest⟩ := List.cons.inj hrest
        refine ⟨before, d, after, c, hrest, hcontainer, ?_⟩
        rw [List.length_cons] at hle
        rcases p.assignOne_cases previous declarations e (e.container.bind (p.ids[·]?)) with
          ⟨s, -, heq⟩ | ⟨x, l', -, heq⟩
        · rw [heq, List.length_append, List.length_singleton]
          omega
        · rw [heq, List.length_append, List.length_singleton]
          omega
    · push Not at he
      obtain ⟨c', hc', hle'⟩ := he
      exact ⟨p, c', by simp only [Pass.assignAll, containerId_of_le hc' hle'], hp⟩

theorem exists_of_not_containersBefore (h : ¬ ContainersBefore declarations) :
    ∃ before d after c, declarations = before ++ d :: after ∧ d.container = some c ∧
      before.length ≤ c := by
  unfold ContainersBefore at h
  push Not at h
  obtain ⟨before, d, after, hdecl, c, hc, hle⟩ := h
  exact ⟨before, d, after, c, hdecl, hc, hle⟩

/-! ### Whole passes -/

/-- Ids can be retired if there is room for them, or if there are none. -/
theorem retireAll_fst (l : Lineage) (gone : List String) :
    (l.retireAll gone).1 = if l.capacity < 0 ∧ gone ≠ [] then .error .noRoom else .ok () := by
  cases gone with
  | nil => simp [retireAll]
  | cons id gone =>
    by_cases h : l.capacity < 0 <;> simp [retireAll, h]

/-- Where containers come first, ids are handed out. -/
theorem exists_handedOut (l : Lineage) (previous : Option Snapshot)
    (hc : ContainersBefore declarations) :
    ∃ ids, HandedOut l declarations previous ids ∧
      (l.assign declarations previous).1 =
        if l.capacity < 0 ∧ goneIds previous ids ≠ [] then .error .noRoom else .ok ids := by
  obtain ⟨p, hp, hlen, ⟨-, horigins⟩, h⟩ := assign_eq l previous hc
    (fun before p => p.ids.length = before.length ∧ HaveOrigins l previous before p.ids)
    ⟨rfl, fun e he => by simp at he⟩ fun before d after p hdecl hp ⟨hlen, horigins⟩ => by
      refine ⟨?_, horigins.assignOne hp hc hdecl hlen⟩
      rcases p.assignOne_cases ((previous.map Snapshot.declared).getD []) declarations d
        (d.container.bind (p.ids[·]?)) with ⟨s, -, heq⟩ | ⟨x, l', -, heq⟩ <;> simp [heq, hlen]
  refine ⟨p.ids, ⟨hlen, hp.nodup, horigins⟩, ?_⟩
  rw [h, retireAll_fst, hp.capacity]
  split_ifs <;> rfl

/-- **One pass never hands out an id twice, nor one that is taken.**  If containers come first,
there is one id for each declaration, all ids are different, and each is carried over from the
declaration's place or new; they are assigned unless one has to be retired and the capacity is
negative.  If some container does not come first, this is what goes wrong, and nothing is
retired. -/
theorem assign_never_repeats (l : Lineage) (declarations : List Declaration)
    (previous : Option Snapshot) :
    (ContainersBefore declarations → ∃ ids, HandedOut l declarations previous ids ∧
      (l.assign declarations previous).1 =
        if l.capacity < 0 ∧ goneIds previous ids ≠ [] then .error .noRoom else .ok ids) ∧
      (¬ ContainersBefore declarations → ∃ c,
        (l.assign declarations previous).1 = .error (.missingContainer c) ∧
        (l.assign declarations previous).2.retired = l.retired) := by
  refine ⟨exists_handedOut l previous, fun hc => ?_⟩
  obtain ⟨before, d, after, c, hdecl, hcontainer, hle⟩ := exists_of_not_containersBefore hc
  obtain ⟨p, c', hall, hp⟩ := Pass.assignAll_missing declarations declarations
    ⟨l, previousIds previous, [], []⟩ (Pass.sound_start l _)
    ⟨before, d, after, c, hdecl, hcontainer, by simpa using hle⟩
  have hassign : l.assign declarations previous = (.error (.missingContainer c'), p.lineage) := by
    unfold previousIds at hall
    simp only [assign, hall]
  refine ⟨c', ?_, ?_⟩
  · rw [hassign]
  · rw [hassign]
    exact hp.retired

/-- A declaration of which only its place counts. -/
def placedAt (name : String) (kind : Kind) (line : Int) (container : Option Nat) : Declaration :=
  ⟨name, kind, line, 1, container, none, none, none⟩

/-- A snapshot with a class, its method, and a function on the line of the class. -/
def crowdedBefore : Snapshot :=
  ⟨"a", 1, "typescript",
    [.ofDeclaration "a" "a::k@1" none (placedAt "k" .klass 1 none),
      .ofDeclaration "a" "a::m@a::k@1@2" (some "a::k@1") (placedAt "m" .method 2 (some 0)),
      .ofDeclaration "a" "a::f@1" none (placedAt "f" .function 1 none)], []⟩

/-- The method has got another name, and the function is declared twice. -/
def crowded : List Declaration :=
  [placedAt "k" .klass 1 none, placedAt "f" .function 1 none, placedAt "f" .function 1 none,
    placedAt "n" .method 2 (some 0)]

/-- The second function has the natural id of the first, whose next variant is retired. -/
theorem crowded_handedOut :
    let l : Lineage := ⟨"a", 2, ["a::f@1#2"], {}⟩
    ContainersBefore crowded ∧
      (l.assign crowded (some crowdedBefore)).1 =
        .ok ["a::k@1", "a::f@1", "a::f@1#3", "a::m@a::k@1@2"] ∧
      (∃ ids, HandedOut l crowded (some crowdedBefore) ids ∧
        (l.assign crowded (some crowdedBefore)).1 = .ok ids) ∧
      ∃ c, (l.assign crowded.reverse (some crowdedBefore)).1 = .error (.missingContainer c) ∧
        (l.assign crowded.reverse (some crowdedBefore)).2.retired = ["a::f@1#2"] := by
  intro l
  have hc : ContainersBefore crowded := by decide
  obtain ⟨ids, hids, hassign⟩ := (assign_never_repeats l crowded (some crowdedBefore)).1 hc
  rw [if_neg fun h => absurd h.1 (by decide)] at hassign
  exact ⟨hc, by decide +kernel, ⟨ids, hids, hassign⟩,
    (assign_never_repeats l crowded.reverse (some crowdedBefore)).2 (by decide)⟩

/-- Ids are not always assigned where containers come first: with a negative capacity no id can be
retired. -/
theorem assign_without_room :
    ContainersBefore [placedAt "b" .function 2 none] ∧
      ((new "a.ts" (-1)).assign [placedAt "a" .function 1 none] none).1 = .ok ["a.ts::a@1"] ∧
      ((new "a.ts" (-1)).assign [placedAt "b" .function 2 none]
        (some ⟨"a.ts", 1, "typescript",
          [.ofDeclaration "a.ts" "a.ts::a@1" none (placedAt "a" .function 1 none)], []⟩)).1 =
        .error .noRoom := by
  exact ⟨by decide, by decide +kernel, by decide +kernel⟩

end Lineage
end SymbolAtlas
