import SymbolAtlas.Proofs.Scopes

/-!
# What the span of a file holds

The span of a file runs from its first position to the end of its last line, which is where the text
ends (`Outline.positionOf_length`).  So it contains the position of every offset of the text, the
one just past the last character included (`Outline.fileSpan_contains`).

A body's span ends one column past its last character.  For a body that is closed this is a position
of the text.  A body that is never closed ends at the end of the text, and one column past that lies
outside the file: the file contains exactly the bodies that are closed
(`Outline.body_inside_file_iff`), and `Outline.unclosed_body_outside` has one that is not.
-/

namespace SymbolAtlas

/-! ### The last line -/

/-- The last line ends where the text ends. -/
theorem Rows.exists_getLast {o : Nat} {t : Text} {rows : List (Nat × Text)} (h : Rows o t rows) :
    ∃ a l, rows.getLast? = some (a, l) ∧ a + l.length = o + t.length := by
  induction h with
  | @last o l hl => exact ⟨o, l, rfl, rfl⟩
  | @more o l br t rows hl hbr hcr h ih =>
    obtain ⟨a, l', hlast, hend⟩ := ih
    refine ⟨a, l', ?_, ?_⟩
    · rw [List.getLast?_cons, hlast, Option.getD_some]
    · rw [hend]
      simp only [List.length_append]
      omega

/-- The lines of a text end with one that ends where the text ends. -/
theorem Text.exists_last_line (t : Text) :
    ∃ a, t.HasLine (t.lines.length - 1) a (t.lines.getLastD []) ∧
      a + (t.lines.getLastD []).length = t.length := by
  obtain ⟨rows, hrows, hstarts, hlines⟩ := t.exists_rows
  obtain ⟨a, l, hlast, hend⟩ := hrows.exists_getLast
  have hrow : rows[t.lines.length - 1]? = some (a, l) := by
    rw [← hlines, List.length_map, ← List.getLast?_eq_getElem?, hlast]
  have hline : t.lines[t.lines.length - 1]? = some l := by
    rw [← hlines, List.getElem?_map, hlines, hrow]
    rfl
  have hgetLast : t.lines.getLastD [] = l := by
    rw [List.getLastD_eq_getLast?, List.getLast?_eq_getElem?, hline]
    rfl
  obtain ⟨a', ha'⟩ := Text.exists_hasLine hline
  have hstart : (LineIndex.ofText t).starts[t.lines.length - 1]? = some a := by
    rw [← hstarts, List.getElem?_map, hrow]
    rfl
  obtain rfl : a' = a := Option.some.inj (ha'.start.symm.trans hstart)
  rw [hgetLast]
  exact ⟨a', ha', by omega⟩

/-- One column past an offset is at or before a later offset, on whatever lines the two lie. -/
theorem LineIndex.positionOf_succ_le_iff {ix : LineIndex} (h : ix.Ascending) {o o' : Nat} :
    Position.le ⟨(ix.positionOf o).line, (ix.positionOf o).column + 1⟩ (ix.positionOf o') = true ↔
      o < o' := by
  obtain ⟨k, a, ho⟩ := exists_onLine h o
  obtain ⟨k', a', ho'⟩ := exists_onLine h o'
  have hle := ho.le
  have hle' := ho'.le
  rw [positionOf_eq h ho, positionOf_eq h ho', Position.le_iff]
  dsimp only
  constructor
  · intro hpos
    by_contra hge
    rcases ho'.mono h ho (by omega) with ⟨rfl, rfl⟩ | hk <;> omega
  · intro hlt
    rcases ho.mono h ho' (by omega) with ⟨rfl, rfl⟩ | hk <;> omega

/-- The closing brace of a body is a character of the text. -/
theorem Declaration.closer_lt_length {t : Text} {d : Declaration} {c : Nat}
    (h : d.closer? t = some c) : c < t.length := by
  obtain ⟨b, hb, hc⟩ := Option.bind_eq_some_iff.mp h
  have hleads := Punctuation.blockAfter_eq_some_iff.mp hb
  obtain ⟨x, hx, -⟩ := Punctuation.getElem?_closer (hleads.closer_eq.symm.trans hc)
  exact (List.getElem?_eq_some_iff.mp hx).1

namespace Outline

/-! ### Positions of the file -/

theorem start_fileSpan (t : Text) :
    (LineIndex.ofText t).positionOf 0 = (ofText t).fileSpan.start := by
  have hasc := LineIndex.ascending_ofText t
  have honLine : (LineIndex.ofText t).OnLine 0 0 0 :=
    ⟨hasc.first, Nat.le_refl 0, fun b hb => LineIndex.start_lt hasc hasc.first hb Nat.one_pos⟩
  rw [LineIndex.positionOf_eq hasc honLine]
  rfl

/-- **The file ends where the text ends.** -/
theorem positionOf_length (t : Text) :
    (LineIndex.ofText t).positionOf t.length = (ofText t).fileSpan.stop := by
  obtain ⟨a, ha, hend⟩ := t.exists_last_line
  have hpos : 0 < t.lines.length := by
    have := (List.getElem?_eq_some_iff.mp ha.line).1
    omega
  rw [← hend, ha.positionOf_eq (Nat.le_refl _)]
  simp only [ofText, fileSpan, Span.stop, Position.mk.injEq, and_true]
  omega

/-- The file contains the positions of all offsets of its text. -/
theorem fileSpan_contains {t : Text} {i : Nat} (hi : i ≤ t.length) :
    (ofText t).fileSpan.contains ((LineIndex.ofText t).positionOf i) = true := by
  have hasc := LineIndex.ascending_ofText t
  rw [Span.contains_iff, ← start_fileSpan, ← positionOf_length]
  exact ⟨(LineIndex.positionOf_le_iff hasc).mpr (Nat.zero_le i),
    (LineIndex.positionOf_le_iff hasc).mpr hi⟩

/-! ### Bodies -/

/-- **The file contains a body exactly if the body is closed.**  One that is not ends one column
past the end of the file. -/
theorem body_inside_file_iff {t : Text} {d : Declaration} {body : Span}
    (hd : d ∈ (ofText t).declarations) (hbody : d.body = some body) :
    ((ofText t).fileSpan.containsSpan body = true ↔ (d.closer? t).isSome = true) ∧
      (d.closer? t = none → body.stop =
        ⟨(ofText t).fileSpan.endLine, (ofText t).fileSpan.endColumn + 1⟩) := by
  have hasc := LineIndex.ascending_ofText t
  have hstands := stands_of_mem hd
  obtain ⟨last, hlast, rfl⟩ := Option.map_eq_some_iff.mp (hstands.body.symm.trans hbody)
  obtain ⟨b, hb, hend⟩ := Option.map_eq_some_iff.mp hlast
  have hcloser : d.closer? t = b.closer := by rw [Declaration.closer?, hb]; rfl
  -- the file contains the start of every body, and its end unless that is the end of the text
  have hstart : (ofText t).fileSpan.contains ⟨d.line, d.column⟩ = true := by
    have hname := hstands.nameEnd_le_length
    have hcontains := fileSpan_contains (t := t) (i := d.nameOffset t) (by omega)
    rwa [hstands.start] at hcontains
  have hinside : (ofText t).fileSpan.contains ⟨((LineIndex.ofText t).positionOf last).line,
      ((LineIndex.ofText t).positionOf last).column + 1⟩ = true ↔ last < t.length := by
    rw [Span.contains_iff, ← start_fileSpan, ← positionOf_length,
      LineIndex.positionOf_succ_le_iff hasc]
    refine and_iff_right ?_
    exact (LineIndex.positionOf_le_shift hasc (d := 1) (Or.inl (Nat.zero_le last))).mpr
      (Nat.zero_le last)
  rw [Span.containsSpan, Bool.and_eq_true, hcloser]
  cases hc : b.closer with
  | none =>
    rw [hc, Option.getD_none] at hend
    subst hend
    refine ⟨⟨fun h => absurd (hinside.mp h.2) (Nat.lt_irrefl _), fun h => by cases h⟩, fun _ => ?_⟩
    have hstop := positionOf_length t
    rw [Span.stop, hstop]
    rfl
  | some c =>
    rw [hc, Option.getD_some] at hend
    subst hend
    have hlt := Declaration.closer_lt_length (hcloser.trans hc)
    exact ⟨⟨fun _ => rfl, fun _ => ⟨hstart, hinside.mpr hlt⟩⟩, fun h => by cases h⟩

/-- A function with a body that is closed, above one whose body is not. -/
def halfOpen : Text := ("function f() {}\n" ++ "function g() \x7b  ").toList

/-- The file contains the first body and not the second. -/
theorem halfOpen_bodies :
    (ofText halfOpen).declarations =
        [⟨"f", .function, 1, 10, none, some ⟨1, 10, 1, 16⟩, none, some ⟨1, some 1⟩⟩,
          ⟨"g", .function, 2, 10, none, some ⟨2, 10, 2, 18⟩, none, some ⟨1, some 1⟩⟩] ∧
      (ofText halfOpen).fileSpan = ⟨1, 1, 2, 17⟩ ∧
      (ofText halfOpen).fileSpan.containsSpan ⟨1, 10, 1, 16⟩ = true ∧
      ¬ (ofText halfOpen).fileSpan.containsSpan ⟨2, 10, 2, 18⟩ = true := by
  have hds : (ofText halfOpen).declarations =
      [⟨"f", .function, 1, 10, none, some ⟨1, 10, 1, 16⟩, none, some ⟨1, some 1⟩⟩,
        ⟨"g", .function, 2, 10, none, some ⟨2, 10, 2, 18⟩, none, some ⟨1, some 1⟩⟩] := by
    decide +kernel
  have hf : ⟨"f", .function, 1, 10, none, some ⟨1, 10, 1, 16⟩, none, some ⟨1, some 1⟩⟩ ∈
      (ofText halfOpen).declarations := by
    rw [hds]
    exact List.mem_cons_self ..
  have hg : ⟨"g", .function, 2, 10, none, some ⟨2, 10, 2, 18⟩, none, some ⟨1, some 1⟩⟩ ∈
      (ofText halfOpen).declarations := by
    rw [hds]
    exact List.mem_cons_of_mem _ (List.mem_cons_self ..)
  refine ⟨hds, by decide +kernel, (body_inside_file_iff hf rfl).1.mpr (by decide +kernel), ?_⟩
  rw [(body_inside_file_iff hg rfl).1]
  decide +kernel

/-- The file does not contain every body: one that is never closed reaches a column too far. -/
theorem unclosed_body_outside :
    (ofText "function a() \x7b".toList).declarations =
        [⟨"a", .function, 1, 10, none, some ⟨1, 10, 1, 16⟩, none, some ⟨1, some 1⟩⟩] ∧
      (ofText "function a() \x7b".toList).fileSpan = ⟨1, 1, 1, 15⟩ ∧
      Span.containsSpan ⟨1, 1, 1, 15⟩ ⟨1, 10, 1, 16⟩ = false := by
  decide +kernel

end Outline

end SymbolAtlas
