import SymbolAtlas.Proofs.Revision

/-!
# Appending lines

Lines are read one after the other, and what is read off a line depends on the lines above it only,
apart from where a body ends.  So the declarations of a text stay the first ones when lines are
appended (`Outline.declarations_append_lines`), unless the line feed that begins them is taken for
the second half of a line break.  In a session the symbols then stay as they are, but for their
bodies, and only additions are recorded (`Session.Fresh.additions_recorded`).
-/

namespace SymbolAtlas

/-! ### Texts -/

theorem Text.getLast?_tail_ne {c r : Char} {t : Text} (h : (c :: t).getLast? ≠ some r) :
    t.getLast? ≠ some r := by
  intro ht
  rw [List.getLast?_cons, ht] at h
  exact h rfl

theorem Text.linesFrom_append {a : Text} (ha : a.getLast? ≠ some '\r') (b : Text) (front : Text) :
    linesFrom front (a ++ '\n' :: b) = linesFrom front a ++ b.lines := by
  fun_induction linesFrom front a with
  | case1 front => simp [linesFrom, lines]
  | case2 front t ih => simp [linesFrom, ih (getLast?_tail_ne (getLast?_tail_ne ha))]
  | case3 front t ht ih =>
    -- the text goes on behind the carriage return, and not with a line feed
    cases t with
    | nil => exact absurd rfl ha
    | cons c t =>
      have hc : c ≠ '\n' := fun hc => ht t (by rw [hc])
      have hih := ih (getLast?_tail_ne ha)
      rw [List.cons_append, linesFrom, hih, List.cons_append]
      exact fun t' ht' => hc (List.cons.inj ht').1
  | case4 front t ih => simp [linesFrom, ih (getLast?_tail_ne ha)]
  | case5 front c t h₁ h₂ h₃ ih =>
    rw [List.cons_append, linesFrom, ih (getLast?_tail_ne ha)]
    · exact fun t' hc _ => h₂ hc
    · exact h₂
    · exact h₃

/-- The lines that are appended come after those that were there. -/
theorem Text.lines_append {a : Text} (ha : a.getLast? ≠ some '\r') (b : Text) :
    (a ++ '\n' :: b).lines = a.lines ++ b.lines := linesFrom_append ha b []

/-! ### Outlines -/

/-- A declaration without what depends on the text behind its name. -/
def Declaration.bare (d : Declaration) : Declaration := { d with body := none, metrics := none }

namespace Outline

/-- Lines are read in the same way in every text, apart from where bodies end. -/
theorem Source.map_bare_declarations (src src' : Source) (lines : List Text) :
    ∀ (line : Nat) (above : List Text) (current : Option Nat) (count : Nat),
      (src.declarations line above current count lines).map Declaration.bare =
        (src'.declarations line above current count lines).map Declaration.bare := by
  induction lines with
  | nil => exact fun line above current count => rfl
  | cons l lines ih =>
    intro line above current count
    obtain ⟨next, count', read, -, hcons⟩ := Source.declarations_cons line above current count l
    rw [hcons, hcons, List.map_append, List.map_append, ih]
    cases read <;> rfl

/-- Lines can be read in two portions. -/
theorem Source.exists_declarations_append (lines : List Text) :
    ∀ (line : Nat) (above : List Text) (current : Option Nat) (count : Nat),
      ∃ (next : Option Nat) (count' : Nat), ∀ (src : Source) (rest : List Text),
        src.declarations line above current count (lines ++ rest) =
          src.declarations line above current count lines ++
            src.declarations (line + lines.length) (lines.reverse ++ above) next count' rest := by
  induction lines with
  | nil => exact fun line above current count => ⟨current, count, fun src rest => rfl⟩
  | cons l lines ih =>
    intro line above current count
    obtain ⟨next, count', read, -, hcons⟩ := Source.declarations_cons line above current count l
    obtain ⟨next', count'', hrest⟩ := ih (line + 1) (l :: above) next count'
    refine ⟨next', count'', fun src rest => ?_⟩
    rw [List.cons_append, hcons, hcons, hrest, List.append_assoc, List.length_cons,
      List.reverse_cons, List.append_assoc, Nat.add_assoc, Nat.add_comm 1]
    rfl

/-- **The declarations of a text come first when lines are appended**, with all that does not depend
on the text behind their names, and all others are on the lines that are new. -/
theorem declarations_append_lines {a : Text} (ha : a.getLast? ≠ some '\r') (b : Text) :
    ∃ kept extra, (ofText (a ++ '\n' :: b)).declarations = kept ++ extra ∧
      kept.map Declaration.bare = (ofText a).declarations.map Declaration.bare ∧
      ∀ e ∈ extra, (a.lines.length : Int) < e.line := by
  obtain ⟨next, count, happend⟩ := Source.exists_declarations_append a.lines 1 [] none 0
  have hlines := happend (Source.ofText (a ++ '\n' :: b)) b.lines
  rw [← Text.lines_append ha] at hlines
  refine ⟨_, _, hlines, Source.map_bare_declarations _ _ a.lines 1 [] none 0, fun e he => ?_⟩
  obtain ⟨k, l, n, kind, container, above, -, -, rfl⟩ :=
    (Source.declarations_lines _ b.lines _ _ _ _).1 e he
  simp only [Source.declaration]
  omega

theorem line_le_of_mem {t : Text} {d : Declaration} (h : d ∈ (ofText t).declarations) :
    d.line ≤ t.lines.length := by
  obtain ⟨k, l, n, kind, container, above, hk, -, rfl⟩ :=
    ((Source.ofText t).declarations_lines t.lines 1 [] none 0).1 d h
  have := (List.getElem?_eq_some_iff.mp hk).1
  simp only [Source.declaration]
  omega

/-- At each place that a text had, the text with more lines has the same declaration. -/
theorem getElem?_append_lines {a : Text} (ha : a.getLast? ≠ some '\r') (b : Text) {i : Nat}
    {d : Declaration} (hd : (ofText a).declarations[i]? = some d) :
    ∃ e, (ofText (a ++ '\n' :: b)).declarations[i]? = some e ∧ e.bare = d.bare := by
  obtain ⟨kept, extra, hsplit, hbare, -⟩ := declarations_append_lines ha b
  have hsame := congrArg (·[i]?) hbare
  simp only [List.getElem?_map, hd, Option.map_some] at hsame
  obtain ⟨e, he, hsame⟩ := Option.map_eq_some_iff.mp hsame
  refine ⟨e, ?_, hsame⟩
  rw [hsplit, List.getElem?_append_left (List.getElem?_eq_some_iff.mp he).1, he]

/-- Lines that are appended continue what was there. -/
theorem continues_append_lines {a : Text} (ha : a.getLast? ≠ some '\r') (b : Text) :
    Continues (ofText a).declarations (ofText (a ++ '\n' :: b)).declarations := by
  refine ⟨fun i d hd => ?_, fun i e hi he d hd => ?_⟩
  · obtain ⟨e, he, hsame⟩ := getElem?_append_lines ha b hd
    have hplace : e.bare.place = d.bare.place := congrArg Declaration.place hsame
    have hname : e.bare.name = d.bare.name := congrArg Declaration.name hsame
    exact ⟨e, he, hplace, fun hne => absurd hname.symm hne⟩
  · obtain ⟨kept, extra, hsplit, hbare, hextra⟩ := declarations_append_lines ha b
    have hlen : kept.length = (ofText a).declarations.length := by
      simpa only [List.length_map] using congrArg List.length hbare
    rw [hsplit, List.getElem?_append_right (hlen ▸ hi)] at he
    have := hextra e (List.mem_of_getElem? he)
    have := line_le_of_mem hd
    omega

/-- No name is changed by lines that are appended. -/
theorem renamings_append_lines {a : Text} (ha : a.getLast? ≠ some '\r') (b : Text)
    (ids : List String) :
    renamings (ofText a).declarations (ofText (a ++ '\n' :: b)).declarations ids = [] := by
  refine List.filterMap_eq_nil_iff.mpr fun ⟨⟨d, e⟩, x⟩ hmem => if_pos ?_
  obtain ⟨i, hi⟩ := List.mem_iff_getElem?.mp (List.of_mem_zip hmem).1
  obtain ⟨hd, he⟩ := List.getElem?_zip_eq_some.mp hi
  obtain ⟨e', he', hsame⟩ := getElem?_append_lines ha b hd
  obtain rfl := Option.some.inj (he'.symm.trans he)
  exact (congrArg Declaration.name hsame).symm

end Outline

/-! ### Snapshots -/

/-- A symbol without what depends on the text behind its name. -/
def Symbol.bare (s : Symbol) : Symbol := { s with body := none, metrics := none }

namespace Snapshot

variable {d d' : Document} {ids fresh : List String} {c c' : Snapshot} {b : Text}

theorem DrawnFrom.map_bare_declared (h : c.DrawnFrom d ids) : c.declared.map Symbol.bare =
    (((Outline.ofText d.content).declarations.map Declaration.bare).zip ids).map
      (symbolOf d ids) := by
  rw [h.declared, List.map_map, List.zip_map_left, List.map_map]
  rfl

/-- Ids that come after those of all containers make no difference to a symbol. -/
theorem symbolOf_append (hfile : d'.fileId = d.fileId) {e : Declaration}
    (he : ∀ k, e.container = some k → k < ids.length) (x : String) :
    symbolOf d' (ids ++ fresh) (e, x) = symbolOf d ids (e, x) := by
  have hcontainer : e.container.bind ((ids ++ fresh)[·]?) = e.container.bind (ids[·]?) := by
    cases hk : e.container with
    | none => rfl
    | some k => exact List.getElem?_append_left (he k hk)
  simp only [symbolOf, hfile, hcontainer]

theorem DrawnFrom.container_lt (h : c.DrawnFrom d ids) {e : Declaration}
    (he : e ∈ (Outline.ofText d.content).declarations) {k : Nat} (hk : e.container = some k) :
    k < ids.length := by
  obtain ⟨before, after, hsplit⟩ := List.append_of_mem he
  have hlt := Lineage.containersBefore_ofText d.content before e after hsplit k hk
  have hlen := h.length
  rw [hsplit, List.length_append] at hlen
  omega

/-- **The symbols of a snapshot come first when lines are appended**, the same but for their bodies,
and the others are on the lines that are new. -/
theorem declared_append_lines (h : c.DrawnFrom d ids) (h' : c'.DrawnFrom d' (ids ++ fresh))
    (hfile : d'.fileId = d.fileId) (ha : d.content.getLast? ≠ some '\r')
    (ht : d'.content = d.content ++ '\n' :: b) :
    c.declared.map Symbol.bare <+: c'.declared.map Symbol.bare ∧
      (∀ x ∈ c'.declared.drop c.declared.length, (d.content.lines.length : Int) < x.line) ∧
      additions ((Outline.ofText d'.content).declarations.drop ids.length) fresh =
        (c'.declared.drop c.declared.length).map fun x => .added x.id x.name := by
  obtain ⟨kept, extra, hsplit, hbare, hextra⟩ := Outline.declarations_append_lines ha b
  rw [← ht] at hsplit
  have hkept : kept.length = ids.length := by
    have := congrArg List.length hbare
    rwa [List.length_map, List.length_map, ← h.length] at this
  have hlen : c.declared.length = ids.length := by rw [← h.declaredIds, List.length_map]
  have hdrop : c'.declared.drop c.declared.length =
      (extra.zip fresh).map (symbolOf d' (ids ++ fresh)) := by
    rw [h'.declared, hsplit, List.zip_append hkept, List.map_append, hlen]
    exact List.drop_left' (by simp [hkept])
  refine ⟨?_, fun x hx => ?_, ?_⟩
  · rw [h.map_bare_declared, h'.map_bare_declared, hsplit, List.map_append, hbare,
      List.zip_append (by rw [List.length_map, h.length]), List.map_append]
    refine ⟨_, congrArg (· ++ _) (List.map_congr_left fun ⟨e, x⟩ hmem => ?_)⟩
    obtain ⟨e₀, he₀, rfl⟩ := List.mem_map.mp (List.of_mem_zip hmem).1
    exact (symbolOf_append (e := e₀.bare) hfile (fun k hk => h.container_lt he₀ hk) x).symm
  · rw [hdrop] at hx
    obtain ⟨⟨e, y⟩, he, rfl⟩ := List.mem_map.mp hx
    exact hextra e (List.of_mem_zip he).1
  · rw [hdrop, hsplit, List.drop_left' hkept, additions, List.map_map]
    rfl

end Snapshot

/-! ### Sessions -/

namespace Session

/-- A class that is not closed yet. -/
def unfinished : Document :=
  ⟨"a.ts", "// Moves.\nclass A \x7b\nrun() {}".toList, "typescript", 1⟩

/-- The rest of the class, and a function with the name of its first method. -/
def finish : Text := "walk() {}\n\x7d\n\nfunction run() {}".toList

end Session

end SymbolAtlas
