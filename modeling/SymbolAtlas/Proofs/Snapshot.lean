import Mathlib.Data.List.Zip
import SymbolAtlas.Proofs.Lineage
import SymbolAtlas.Session.Pass

/-!
# What a snapshot holds

A snapshot made of a document and the ids of its declarations holds the file's own symbol and one
symbol for each declaration, with its id (`declaredIds_ofOutline`) and everything else that the
outline says of it (`Snapshot.Reflects`).  Made with the ids that a lineage of the file assigns,
its symbols bear ids of the file (`identified_ofOutline`), and so do both ends of its calls
(`Snapshot.isIdOf_of_mem_callEdges`).
-/

namespace SymbolAtlas

/-- What a symbol takes over from its declaration. -/
structure Particulars where
  name : String
  kind : Kind
  span : Span
  selection : Span
  body : Option Span
  summary : Option String
  metrics : Option Metrics
  deriving DecidableEq, Repr

/-- The particulars of a symbol. -/
def Symbol.particulars (s : Symbol) : Particulars :=
  ⟨s.name, s.kind, s.span, s.selection, s.body, s.summary, s.metrics⟩

/-- The particulars of a declaration, which extends over its name. -/
def Declaration.particulars (d : Declaration) : Particulars :=
  ⟨d.name, d.kind, d.selection, d.selection, d.body, d.summary, d.metrics⟩

/-- A snapshot that tells of one version of a document all that its outline says. -/
structure Snapshot.Reflects (s : Snapshot) (d : Document) : Prop where
  fileId : s.fileId = d.fileId
  version : s.version = d.version
  language : s.language = d.language
  source : s.source = d.content
  declared : s.declared.map Symbol.particulars =
    (Outline.ofText d.content).declarations.map Declaration.particulars

namespace Snapshot

variable {s : Snapshot} {ids : List String} {f : String} {x : Symbol}

/-- The symbol of a declaration and its id in a snapshot of `d`. -/
def symbolOf (d : Document) (ids : List String) (e : Declaration × String) : Symbol :=
  .ofDeclaration d.fileId e.2 (e.1.container.bind (ids[·]?)) e.1

/-- No declaration is that of the file. -/
theorem kind_ne_file {t : Text} {e : Declaration}
    (he : e ∈ (Outline.ofText t).declarations) : e.kind ≠ .file := by
  obtain ⟨before, after, h⟩ := List.append_of_mem he
  exact (Outline.placed_of_mem t h).kind_ne_file

theorem declared_ofOutline (d : Document) (ids : List String) :
    (ofOutline d (Outline.ofText d.content) ids).declared =
      ((Outline.ofText d.content).declarations.zip ids).map (symbolOf d ids) := by
  have hkind : ∀ x ∈ ((Outline.ofText d.content).declarations.zip ids).map (symbolOf d ids),
      decide (x.kind ≠ .file) = true := by
    intro x hx
    obtain ⟨⟨e, id⟩, he, rfl⟩ := List.mem_map.mp hx
    exact decide_eq_true (kind_ne_file (List.of_mem_zip he).1)
  rw [declared, ofOutline, List.filter_cons_of_neg (by simp)]
  exact List.filter_eq_self.mpr hkind

/-- The ids of a snapshot are those assigned. -/
theorem declaredIds_ofOutline (d : Document)
    (hlen : ids.length = (Outline.ofText d.content).declarations.length) :
    (ofOutline d (Outline.ofText d.content) ids).declared.map Symbol.id = ids := by
  rw [declared_ofOutline, List.map_map]
  exact List.map_snd_zip (Nat.le_of_eq hlen)

/-- With that of the file before them. -/
theorem ids_ofOutline (d : Document)
    (hlen : ids.length = (Outline.ofText d.content).declarations.length) :
    (ofOutline d (Outline.ofText d.content) ids).symbols.map Symbol.id =
      fileSymbolId d.fileId :: ids := by
  simp only [ofOutline, List.map_cons, List.map_map]
  exact congrArg _ (List.map_snd_zip (Nat.le_of_eq hlen))

/-- A snapshot reflects its document. -/
theorem reflects_ofOutline (d : Document)
    (hlen : ids.length = (Outline.ofText d.content).declarations.length) :
    (ofOutline d (Outline.ofText d.content) ids).Reflects d := by
  refine ⟨rfl, rfl, rfl, rfl, ?_⟩
  rw [declared_ofOutline, List.map_map]
  have hfst : ((Outline.ofText d.content).declarations.zip ids).map Prod.fst =
      (Outline.ofText d.content).declarations := List.map_fst_zip (Nat.le_of_eq hlen.symm)
  rw [← congrArg (List.map Declaration.particulars) hfst, List.map_map]
  rfl

/-! ### Ids of one file -/

/-- **The symbols of a file bear ids of that file** in every snapshot made with ids of the shapes
that the declarations ask for. -/
theorem identified_ofOutline (d : Document)
    (h : Lineage.Shaped d.fileId (Outline.ofText d.content).declarations ids) :
    Lineage.Identified d.fileId (ofOutline d (Outline.ofText d.content) ids) := by
  intro s hs
  rcases List.mem_cons.mp hs with rfl | hs
  · exact ⟨fun _ => rfl, fun hk => absurd rfl hk⟩
  · obtain ⟨⟨e, id⟩, he, rfl⟩ := List.mem_map.mp hs
    refine ⟨fun hk => absurd hk (kind_ne_file (List.of_mem_zip he).1), fun _ => ?_⟩
    obtain ⟨i, hi⟩ := List.mem_iff_getElem?.mp he
    obtain ⟨hei, hidi⟩ := List.getElem?_zip_eq_some.mp hi
    obtain ⟨before, after, hbefore⟩ := List.append_of_mem (List.of_mem_zip he).1
    have hsome : (e.container.bind (ids[·]?)).isSome = e.container.isSome := by
      cases hc : e.container with
      | none => rfl
      | some c =>
        have hlt := Lineage.containersBefore_ofText d.content before e after hbefore c hc
        have hlen : c < ids.length := by
          rw [h.1, hbefore, List.length_append]
          omega
        simp [List.getElem?_eq_getElem hlen]
    have := h.2 i e id hei hidi
    rwa [← hsome] at this

theorem shape_of_declared (h : Lineage.Identified f s) :
    ∀ x ∈ s.declared, Lineage.HasShape f x.container.isSome x.id := by
  intro x hx
  obtain ⟨hmem, hkind⟩ := List.mem_filter.mp hx
  exact (h x hmem).2 (of_decide_eq_true hkind)

/-- All its ids name its file. -/
theorem isIdOf_of_mem (h : Lineage.Identified f s) (hx : x ∈ s.symbols) : IsIdOf f x.id := by
  by_cases hk : x.kind = .file
  · exact Or.inl ((h x hx).1 hk)
  · have hshape := (h x hx).2 hk
    unfold Lineage.HasShape at hshape
    split_ifs at hshape
    · exact Or.inr (Or.inr hshape)
    · exact Or.inr (Or.inl hshape)

/-! ### Calls -/

theorem mem_of_enclosing {symbols : List Symbol} {p : Position} (h : enclosing symbols p = some x) :
    x ∈ symbols := by
  have hfold : ∀ (xs : List Symbol) (best : Option Symbol),
      xs.foldl (fun best s =>
        if s.scope.contains p && best.all fun b => b.scope.start.le s.scope.start then some s
        else best) best = some x → x ∈ xs ∨ best = some x := by
    intro xs
    induction xs with
    | nil => exact fun best hb => Or.inr hb
    | cons y xs ih =>
      intro best hb
      rcases ih _ hb with hx | hx
      · exact Or.inl (List.mem_cons_of_mem y hx)
      · dsimp only at hx
        split_ifs at hx
        · obtain rfl := Option.some.inj hx
          exact Or.inl (List.mem_cons_self ..)
        · exact Or.inr hx
  rcases hfold symbols none h with hx | hx
  · exact hx
  · simp at hx

theorem mem_of_callerAt {p : Position} (h : s.callerAt p = some x) : x ∈ s.symbols := by
  rcases Option.or_eq_some_iff.mp h with h | ⟨-, h⟩
  · exact (List.mem_filter.mp (mem_of_enclosing h)).1
  · exact List.mem_of_mem_head? h

/-- A call goes from a symbol of the snapshot to another one. -/
theorem ends_of_mem_callEdges {e : Edge} (h : e ∈ s.callEdges) :
    (∃ x ∈ s.symbols, x.id = e.caller) ∧ ∃ y ∈ s.symbols, y.id = e.callee := by
  simp only [callEdges, edgesOf, List.mem_eraseDups, List.mem_flatMap] at h
  obtain ⟨name, -, offset, -, he⟩ := h
  split_ifs at he
  · simp at he
  · split at he
    · simp at he
    · rename_i caller hcaller
      obtain ⟨callee, hcallee, rfl⟩ := List.mem_map.mp he
      exact ⟨⟨caller, mem_of_callerAt hcaller, rfl⟩, callee,
        (List.mem_filter.mp (List.mem_filter.mp hcallee).1).1, rfl⟩

/-- So do both ends of every call. -/
theorem isIdOf_of_mem_callEdges (h : Lineage.Identified f s) {e : Edge} (he : e ∈ s.callEdges) :
    IsIdOf f e.caller ∧ IsIdOf f e.callee := by
  obtain ⟨⟨x, hx, hxe⟩, y, hy, hye⟩ := ends_of_mem_callEdges he
  exact ⟨hxe ▸ isIdOf_of_mem h hx, hye ▸ isIdOf_of_mem h hy⟩

/-- Of what is listed several times the first is kept. -/
theorem nodup_eraseDups {α : Type} [DecidableEq α] (l : List α) : l.eraseDups.Nodup := by
  induction hn : l.length using Nat.strongRecOn generalizing l with
  | ind n ih =>
    cases l with
    | nil => exact List.nodup_nil
    | cons a l =>
      rw [List.eraseDups_cons, List.nodup_cons, List.mem_eraseDups]
      refine ⟨by simp, ih _ ?_ _ rfl⟩
      have := List.length_filter_le (fun b => !b == a) l
      rw [List.length_cons] at hn
      omega

/-- No call is listed twice. -/
theorem nodup_callEdges (s : Snapshot) : s.callEdges.Nodup := nodup_eraseDups _

end Snapshot

/-- **The ids that a lineage of a file assigns make a snapshot of that file**, if the previous
snapshot was one, and the lineage stays one of the file. -/
theorem Lineage.assign_identified {l : Lineage} {d : Document} (hl : l.fileId = d.fileId)
    {previous : Option Snapshot} (hprev : ∀ s, previous = some s → Lineage.Identified d.fileId s) :
    (l.assign (Outline.ofText d.content).declarations previous).2.fileId = d.fileId ∧
      ∀ ids, (l.assign (Outline.ofText d.content).declarations previous).1 = .ok ids →
        Identified d.fileId (Snapshot.ofOutline d (Outline.ofText d.content) ids) := by
  have hsymbols : ∀ s ∈ (previous.map Snapshot.declared).getD [],
      HasShape d.fileId s.container.isSome s.id := by
    cases previous with
    | none => simp
    | some s => exact Snapshot.shape_of_declared (hprev s rfl)
  obtain ⟨p, hp, -, hshaped, h⟩ := assign_eq l previous
    (containersBefore_ofText d.content) (fun done p => Shaped d.fileId done p.ids)
    ⟨rfl, fun i e x he => by simp at he⟩
    fun before e after p hdecl hp hshaped => hshaped.assignOne hl hsymbols hdecl hp
  rw [h]
  refine ⟨(retireAll_fileId _ _).trans (hp.fileId.trans hl), fun ids hids => ?_⟩
  cases hr : (p.lineage.retireAll (goneIds previous p.ids)).1 with
  | error e => simp [hr, Except.map] at hids
  | ok u =>
    obtain rfl : p.ids = ids := by simpa [hr, Except.map] using hids
    exact Snapshot.identified_ofOutline d hshaped

end SymbolAtlas
