import SymbolAtlas.Proofs.Appending
import SymbolAtlas.Proofs.FileSpan
import SymbolAtlas.Proofs.Unambiguous
import SymbolAtlas.Session.Query

/-!
# Every snapshot is well formed

Whatever texts a document goes through, and whatever its lineage remembers by then, each snapshot
that comes to be there is well formed (`Snapshot.WellFormed`): one symbol stands for the file and
comes first, ids are all different, declarations follow each other line by line with names of their
own, methods and nothing else belong to a class further up, and the file reaches around all of them.

This comes together from three sides.  The outline places declarations and their containers, a pass
of the lineage hands out different ids, and the shape of an id tells that of the file from all
others (`Snapshot.DrawnFrom.wellFormed`).  Since the file contains what its symbols contain, the
first symbol found at a position is always the file's own (`Snapshot.WellFormed.find?_span`).
-/

namespace SymbolAtlas

/-- A span contains what a span inside of it contains. -/
theorem Span.contains_of_containsSpan {s t : Span} (h : s.containsSpan t = true) {p : Position}
    (hp : t.contains p = true) : s.contains p = true := by
  rw [containsSpan, Bool.and_eq_true, contains_iff, contains_iff] at h
  rw [contains_iff] at hp ⊢
  exact ⟨Position.le_trans h.1.1 hp.1, Position.le_trans hp.2 h.2.2⟩

namespace Snapshot

/-- What every snapshot of the file `f` looks like. -/
structure WellFormed (f : String) (c : Snapshot) : Prop where
  /-- The first symbol stands for the file, no other one does, and it extends over all of them. -/
  file : ∃ file, c.symbols = file :: c.declared ∧ file.kind = .file ∧ file.id = fileSymbolId f ∧
    ∀ x ∈ c.symbols, file.span.containsSpan x.span = true
  distinct : c.ids.Nodup
  ordered : (c.declared.map Symbol.line).Pairwise (· < ·)
  named : ∀ x ∈ c.declared, IsName x.name
  kinds : ∀ x ∈ c.declared, x.kind = .klass ∨ x.kind = .function ∨ x.kind = .method
  methods : ∀ x ∈ c.declared, x.container.isSome = true ↔ x.kind = .method
  /-- Containers are classes that come before their methods. -/
  classes : ∀ before x after k, c.declared = before ++ x :: after → x.container = some k →
    ∃ y ∈ before, y.kind = .klass ∧ y.id = k

/-! ### Snapshots that are drawn from documents -/

namespace DrawnFrom

variable {d : Document} {ids : List String} {c : Snapshot}

theorem symbols (h : c.DrawnFrom d ids) :
    ∃ file, c.symbols = file :: c.declared ∧ file.kind = .file ∧
      file.id = fileSymbolId d.fileId ∧ file.span = (Outline.ofText d.content).fileSpan := by
  rw [h.declared, h.eq]
  exact ⟨_, rfl, rfl, rfl, rfl⟩

theorem distinct (h : c.DrawnFrom d ids) (hid : Lineage.Identified d.fileId c) : c.ids.Nodup := by
  rw [h.ids_eq]
  exact List.nodup_cons.mpr ⟨h.fileSymbolId_notMem hid, h.nodup⟩

theorem map_fst_zip (h : c.DrawnFrom d ids) :
    ((Outline.ofText d.content).declarations.zip ids).map Prod.fst =
      (Outline.ofText d.content).declarations := List.map_fst_zip (Nat.le_of_eq h.length.symm)

theorem lines (h : c.DrawnFrom d ids) :
    c.declared.map Symbol.line = (Outline.ofText d.content).declarations.map Declaration.line := by
  rw [h.declared, List.map_map, ← congrArg (List.map Declaration.line) h.map_fst_zip, List.map_map]
  rfl

/-- A symbol comes from a declaration that is placed among the others, and has a container if that
has one. -/
theorem exists_placed (h : c.DrawnFrom d ids) {x : Symbol} (hx : x ∈ c.declared) :
    ∃ e id before, x = symbolOf d ids (e, id) ∧ e ∈ (Outline.ofText d.content).declarations ∧
      e.Placed before ∧ x.container.isSome = e.container.isSome := by
  obtain ⟨i, e, id, he, -, rfl⟩ := h.mem_declared_iff.mp hx
  have hmem := List.mem_of_getElem? he
  obtain ⟨before, after, hbefore⟩ := List.append_of_mem hmem
  refine ⟨e, id, before, rfl, hmem, Outline.placed_of_mem d.content hbefore, ?_⟩
  show (e.container.bind (ids[·]?)).isSome = e.container.isSome
  cases hk : e.container with
  | none => rfl
  | some k => simp [List.getElem?_eq_getElem (h.container_lt hmem hk)]

/-- The class of a method is among the symbols before it. -/
theorem exists_class (h : c.DrawnFrom d ids) {before after : List Symbol} {x : Symbol} {k : String}
    (hsplit : c.declared = before ++ x :: after) (hk : x.container = some k) :
    ∃ y ∈ before, y.kind = .klass ∧ y.id = k := by
  rw [h.declared] at hsplit
  obtain ⟨front, rest, hzip, rfl, hrest⟩ := List.map_eq_append_iff.mp hsplit
  obtain ⟨⟨e, id⟩, back, rfl, rfl, -⟩ := List.map_eq_cons_iff.mp hrest
  -- the declarations are split in the same place
  have hdecl : (Outline.ofText d.content).declarations =
      front.map Prod.fst ++ e :: back.map Prod.fst := by
    rw [← h.map_fst_zip, hzip, List.map_append, List.map_cons]
  obtain ⟨i, hi, hid⟩ := Option.bind_eq_some_iff.mp hk
  obtain ⟨klass, hklass, hkind, -⟩ := (Outline.placed_of_mem d.content hdecl).container i hi
  rw [List.getElem?_map] at hklass
  obtain ⟨⟨e', id'⟩, hfront, rfl⟩ := Option.map_eq_some_iff.mp hklass
  have hpair : ((Outline.ofText d.content).declarations.zip ids)[i]? = some (e', id') := by
    rw [hzip, List.getElem?_append_left (List.getElem?_eq_some_iff.mp hfront).1, hfront]
  have hid' : ids[i]? = some id' := (List.getElem?_zip_eq_some.mp hpair).2
  refine ⟨_, List.mem_map_of_mem (List.mem_of_getElem? hfront), hkind, ?_⟩
  exact Option.some.inj (hid'.symm.trans hid)

/-- **The file reaches around all of its symbols.** -/
theorem fileSpan_containsSpan (h : c.DrawnFrom d ids) {x : Symbol} (hx : x ∈ c.symbols) :
    (Outline.ofText d.content).fileSpan.containsSpan x.span = true := by
  obtain ⟨file, hsymbols, -, -, hspan⟩ := h.symbols
  rw [hsymbols] at hx
  rw [Span.containsSpan, Bool.and_eq_true]
  rcases List.mem_cons.mp hx with rfl | hx
  · rw [hspan, ← Outline.start_fileSpan, ← Outline.positionOf_length]
    exact ⟨Outline.fileSpan_contains (Nat.zero_le _), Outline.fileSpan_contains (Nat.le_refl _)⟩
  · obtain ⟨e, id, before, rfl, he, -⟩ := h.exists_placed hx
    have hstands := Outline.stands_of_mem he
    have hend := hstands.nameEnd_le_length
    have hstart := Outline.fileSpan_contains (t := d.content) (i := e.nameOffset d.content)
      (by omega)
    have hstop := Outline.fileSpan_contains hend
    rw [hstands.start] at hstart
    rw [hstands.stop] at hstop
    exact ⟨hstart, hstop⟩

/-- **A snapshot with ids of its file is well formed.** -/
theorem wellFormed (h : c.DrawnFrom d ids) (hid : Lineage.Identified d.fileId c) :
    c.WellFormed d.fileId := by
  obtain ⟨file, hsymbols, hkind, hfile, hspan⟩ := h.symbols
  refine ⟨⟨file, hsymbols, hkind, hfile, fun x hx => ?_⟩, h.distinct hid, ?_, fun x hx => ?_,
    fun x hx => ?_, fun x hx => ?_, fun before x after k => h.exists_class⟩
  · rw [hspan]
    exact h.fileSpan_containsSpan hx
  · rw [h.lines]
    exact Outline.lines_sorted d.content
  · obtain ⟨e, id, before, rfl, -, he, -⟩ := h.exists_placed hx
    exact he.named
  · obtain ⟨e, id, before, rfl, -, he, -⟩ := h.exists_placed hx
    rcases he.kind with ⟨hk, -⟩ | ⟨hk, -⟩ | ⟨hk, -⟩
    · exact Or.inl hk
    · exact Or.inr (Or.inl hk)
    · exact Or.inr (Or.inr hk)
  · obtain ⟨e, id, before, rfl, -, he, hcontainer⟩ := h.exists_placed hx
    have hkind : (symbolOf d ids (e, id)).kind = e.kind := rfl
    rw [hcontainer, hkind]
    rcases he.kind with ⟨hk, hc⟩ | ⟨hk, hc⟩ | ⟨hk, hc⟩ <;> simp [hk, hc]

end DrawnFrom

/-- The first symbol at a position is the file's own, if there is one. -/
theorem WellFormed.find?_span {f : String} {c : Snapshot} (h : c.WellFormed f) (p : Position) :
    c.symbols.find? (·.span.contains p) = c.symbols.head?.filter (·.span.contains p) := by
  obtain ⟨file, hsymbols, -, -, hinside⟩ := h.file
  rw [hsymbols] at hinside ⊢
  rw [List.find?_cons, List.head?_cons]
  cases hp : file.span.contains p with
  | true => rw [Option.filter_some, if_pos hp]
  | false =>
    have hnone : ∀ x ∈ c.declared, x.span.contains p = false := by
      intro x hx
      rw [Bool.eq_false_iff]
      intro hxp
      have hfile := Span.contains_of_containsSpan (hinside x (List.mem_cons_of_mem _ hx)) hxp
      rw [hp] at hfile
      exact Bool.false_ne_true hfile
    rw [Option.filter_some, if_neg (by simp [hp]), List.find?_eq_none]
    exact fun x hx => by simp [hnone x hx]

end Snapshot

/-! ### Sessions -/

namespace Session

theorem Moment.drawn {s : Session} (h : s.Moment) : s.Drawn := by
  cases h with
  | between h => exact h.drawn
  | @during s h op c hc =>
    cases op with
    | dispose part => simp [calls] at hc
    | _ => exact h.drawn.reaches ((follows_step s rfl).calls c hc)

/-- At every moment snapshots are well formed. -/
theorem Moment.wellFormed {s : Session} (h : s.Moment) {f : String} {c : Snapshot}
    (hc : s.snapshot? f = some c) : c.WellFormed f := by
  obtain ⟨d, ids, rfl, hdrawn⟩ := h.drawn f c hc
  exact hdrawn.wellFormed (h.identifies.snapshots d.fileId c hc)

/-- **Every snapshot is well formed**, in every session, between two operations and whenever a
subscriber is called during one.  So what is found at a position of a file is the file's own symbol
if that contains the position, and nothing otherwise. -/
theorem Moment.snapshots_wellFormed {s : Session} (h : s.Moment) (f : String) :
    (∀ c, s.snapshot? f = some c → c.WellFormed f) ∧
      ∀ p, s.symbolAt f p =
        ((s.snapshot? f).bind (·.symbols.head?)).filter (·.span.contains p) := by
  refine ⟨fun c hc => h.wellFormed hc, fun p => ?_⟩
  unfold symbolAt
  cases hc : s.snapshot? f with
  | none => rfl
  | some c => exact (h.wellFormed hc).find?_span p

/-- A class with two methods, and a function.  One method and the function go and come back, and
the other method gives way to another one. -/
def reworked : List Op :=
  [.openDocument "a" ("class k \x7b\n" ++ "  m() {}\n" ++ "  m() {}\n\x7d\n\n" ++
      "function f() {}").toList "typescript" 1,
    .update "a" ("class k \x7b\n" ++ "  m() {}\n\x7d").toList,
    .update "a" ("class k \x7b\n" ++ "  $n_1() {}\n" ++ "  m() {}\n\x7d\n\n" ++
      "function f() {}").toList]

/-- Ids have got suffixes, and the name of a method is a place in the file and not in the method. -/
theorem reworked_wellFormed :
    let s := (new .default false (.new false)).run reworked
    (s.snapshot? "a").map Snapshot.ids =
        some ["a::<file>@1", "a::k@1", "a::$n_1@a::k@1@2", "a::m@a::k@1@3#2", "a::f@6#2"] ∧
      (s.symbolAt "a" ⟨2, 4⟩).map Symbol.id = some "a::<file>@1" ∧ s.symbolAt "a" ⟨7, 1⟩ = none ∧
      (∃ c, s.snapshot? "a" = some c ∧ c.WellFormed "a") ∧
      ∀ p, s.symbolAt "a" p =
        ((s.snapshot? "a").bind (·.symbols.head?)).filter (·.span.contains p) := by
  have hmoment : ((new .default false (.new false)).run reworked).Moment :=
    .between ((reachable_new _ _ _).run _)
  have hids : (((new .default false (.new false)).run reworked).snapshot? "a").map Snapshot.ids =
      some ["a::<file>@1", "a::k@1", "a::$n_1@a::k@1@2", "a::m@a::k@1@3#2", "a::f@6#2"] := by
    decide +kernel
  obtain ⟨hwellFormed, hsymbolAt⟩ := hmoment.snapshots_wellFormed "a"
  obtain ⟨c, hc, -⟩ := Option.map_eq_some_iff.mp hids
  exact ⟨hids, by decide +kernel, by decide +kernel, ⟨c, hc, hwellFormed c hc⟩, hsymbolAt⟩

end Session
end SymbolAtlas
