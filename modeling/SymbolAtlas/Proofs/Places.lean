import Mathlib.Data.List.Basic
import SymbolAtlas.Proofs.Lines
import SymbolAtlas.Proofs.Outline

/-!
# Where declarations stand

A declaration is read off a line and says on which line and in which column its name stands.
`Declaration.Stands` ties this to the text: the name is found at the offset that belongs to the
position, and the body ends where the block that follows the name ends.  It holds of every
declaration of an outline (`Outline.stands_of_mem`), since readers only ever skip the beginning of
a line, in which there are no marks (`Reader.SkipsUnmarked`).  No two declarations stand on one line
(`Outline.lines_sorted`).

So lines and offsets may be used side by side: there are as many lines as line starts, a column of a
line is found at its offset, and a declared name at the offset of its position
(`Outline.lines_and_index_agree`).
-/

namespace SymbolAtlas

variable {n : Naming} {l line : Text} {c : Char} {r : Reader}

/-! ### Readers -/

/-- A text without marks. -/
def Unmarked (t : Text) : Prop := ∀ c ∈ t, isMark c = false

instance (t : Text) : Decidable (Unmarked t) := List.decidableBAll (isMark · = false) t

theorem isMark_cases (h : isMark c = true) : c = '{' ∨ c = '}' ∨ c = '(' ∨ c = ')' ∨ c = ';' := by
  simpa [isMark, or_assoc] using h

/-- Blanks are no marks. -/
theorem isMark_of_isBlank (h : isBlank c = true) : isMark c = false := by
  rw [← Bool.not_eq_true]
  intro hmark
  rcases isMark_cases hmark with rfl | rfl | rfl | rfl | rfl <;> exact absurd h (by decide)

/-- Nor are letters. -/
theorem isMark_of_isIdent (h : isIdent c = true) : isMark c = false := by
  rw [← Bool.not_eq_true]
  intro hmark
  rcases isMark_cases hmark with rfl | rfl | rfl | rfl | rfl <;> exact absurd h (by decide)

namespace Reader

variable {next : Reader}

/-- The reader skips the beginning of a text, and nothing else. -/
def Skips (r : Reader) : Prop := ∀ t rest, r t = some rest → rest <:+ t

/-- The reader skips the beginning of a text, in which there are no marks. -/
def SkipsUnmarked (r : Reader) : Prop :=
  ∀ t rest, r t = some rest → ∃ pre, t = pre ++ rest ∧ Unmarked pre

/-- A reader that skips nothing marked skips. -/
theorem SkipsUnmarked.skips {r : Reader} (hr : SkipsUnmarked r) : Skips r := by
  intro t rest h
  obtain ⟨pre, rfl, -⟩ := hr t rest h
  exact List.suffix_append pre rest

/-- What is skipped before a reader begins has no marks either. -/
theorem SkipsUnmarked.after {r : Reader} (hr : SkipsUnmarked r) {t t' front rest : Text}
    (h : r t' = some rest) (ht : t = front ++ t') (hfront : Unmarked front) :
    ∃ pre, t = pre ++ rest ∧ Unmarked pre := by
  obtain ⟨pre, rfl, hpre⟩ := hr t' rest h
  refine ⟨front ++ pre, by rw [ht, List.append_assoc], fun c hc => ?_⟩
  rcases List.mem_append.mp hc with hc | hc
  · exact hfront c hc
  · exact hpre c hc

/-- What is trimmed off is not marked. -/
theorem exists_unmarked_trimLeft (t : Text) :
    ∃ front, t = front ++ Text.trimLeft t ∧ Unmarked front :=
  ⟨t.takeWhile isBlank, List.takeWhile_append_dropWhile.symm,
    fun _ hc => isMark_of_isBlank (List.mem_takeWhile_imp hc)⟩

theorem skipsUnmarked_name : SkipsUnmarked name := by
  intro t rest h
  unfold name at h
  split at h
  · split_ifs at h
    obtain rfl := Option.some.inj h
    exact ⟨[], rfl, by simp [Unmarked]⟩
  · simp at h

theorem skipsUnmarked_calledName : SkipsUnmarked calledName := by
  intro t rest h
  unfold calledName at h
  split at h
  · exact skipsUnmarked_name t rest h
  · simp at h

theorem SkipsUnmarked.blanks (hn : SkipsUnmarked next) : SkipsUnmarked (blanks next) := by
  intro t rest h
  obtain ⟨front, ht, hfront⟩ := exists_unmarked_trimLeft t
  exact hn.after h ht hfront

/-- A word that is not marked can be skipped. -/
theorem SkipsUnmarked.word (hn : SkipsUnmarked next) {w : Text} (hw : Unmarked w) :
    SkipsUnmarked (word w next) := by
  intro t rest h
  unfold Reader.word at h
  split at h
  · rename_i c u hu
    split_ifs at h with hc
    obtain ⟨front, hfront, hblank⟩ := exists_unmarked_trimLeft u
    have ht : t = (w ++ c :: front) ++ Text.trimLeft u := by
      rw [List.append_assoc, List.cons_append, ← hfront]
      exact (List.isPrefixOf?_eq_some_iff_append_eq.mp hu).symm
    refine hn.after h ht fun x hx => ?_
    simp only [List.mem_append, List.mem_cons] at hx
    rcases hx with hx | rfl | hx
    · exact hw x hx
    · exact isMark_of_isBlank hc
    · exact hblank x hx
  · simp at h

/-- So can some of several words. -/
theorem SkipsUnmarked.optional (hn : SkipsUnmarked next) {ws : List Text}
    (hws : ∀ w ∈ ws, Unmarked w) : SkipsUnmarked (optional ws next) := by
  intro t rest h
  rcases Option.or_eq_some_iff.mp h with h | ⟨-, h⟩
  · obtain ⟨w, hw, hw'⟩ := List.exists_of_findSome?_eq_some h
    exact hn.word (hws w hw) t rest hw'
  · exact hn t rest h

theorem SkipsUnmarked.functionWord (hn : SkipsUnmarked next) :
    SkipsUnmarked (functionWord next) := by
  intro t rest h
  have hword : Unmarked "function".toList := by decide
  unfold Reader.functionWord at h
  split at h
  · simp at h
  · rename_i u hu
    obtain ⟨front, hfront, hblank⟩ := exists_unmarked_trimLeft u
    have ht : t = ("function".toList ++ front) ++ Text.trimLeft u := by
      rw [List.append_assoc, ← hfront]
      exact (List.isPrefixOf?_eq_some_iff_append_eq.mp hu).symm
    have hunmarked : Unmarked ("function".toList ++ front) := by
      intro x hx
      rcases List.mem_append.mp hx with hx | hx
      · exact hword x hx
      · exact hblank x hx
    split at h
    · rename_i after hafter
      obtain ⟨front', hfront', hblank'⟩ := exists_unmarked_trimLeft after
      have hstar : t = ("function".toList ++ front ++ '*' :: front') ++ Text.trimLeft after := by
        rw [ht, hafter, List.append_assoc _ ('*' :: front'), List.cons_append, ← hfront']
      refine hn.after h hstar fun x hx => ?_
      rcases List.mem_append.mp hx with hx | hx
      · exact hunmarked x hx
      · rcases List.mem_cons.mp hx with rfl | hx
        · decide
        · exact hblank' x hx
    · split_ifs at h
      exact hn.after h ht hunmarked

theorem skipsUnmarked_classLine : SkipsUnmarked classLine :=
  (((skipsUnmarked_name.word (by decide)).optional (by decide)).optional (by decide)).optional
    (by decide) |>.blanks

theorem skipsUnmarked_functionLine : SkipsUnmarked functionLine :=
  ((skipsUnmarked_name.functionWord.optional (by decide)).optional (by decide)).optional
    (by decide) |>.blanks

theorem skipsUnmarked_methodLine : SkipsUnmarked methodLine :=
  ((skipsUnmarked_calledName.optional (by decide)).optional (by decide)).optional
    (by decide) |>.blanks

end Reader

/-- The name stands on the line, behind as many characters as it says. -/
def Naming.StandsOn (line : Text) (n : Naming) : Prop :=
  ∃ pre post, line = pre ++ n.name.toList ++ post ∧ pre.length = n.before

/-- A name stands where it was found. -/
theorem Naming.standsOn_of_ofReader (hr : r.Skips) (h : Naming.ofReader r line = some n) :
    n.StandsOn line := by
  obtain ⟨rest, hrest, rfl⟩ := Option.map_eq_some_iff.mp h
  obtain ⟨pre, rfl⟩ := hr line rest hrest
  refine ⟨pre, rest.dropWhile isIdent, ?_, ?_⟩
  · rw [String.toList_ofList, List.append_assoc, List.takeWhile_append_dropWhile]
  · simp

/-- So does that of a line. -/
theorem LineKind.standsOn_of_ofLine (h : (LineKind.ofLine line).naming? = some n) :
    n.StandsOn line := by
  rcases ofReader_of_ofLine h with h | h | h
  · exact Naming.standsOn_of_ofReader Reader.skipsUnmarked_classLine.skips h
  · exact Naming.standsOn_of_ofReader Reader.skipsUnmarked_functionLine.skips h
  · exact Naming.standsOn_of_ofReader Reader.skipsUnmarked_methodLine.skips h

/-- On its line a name is as long as it can be. -/
theorem Naming.ends_of_ofReader (hr : r.Skips) (h : Naming.ofReader r l = some n) {x : Char}
    (hx : l[n.before + n.name.length]? = some x) : isIdent x = false := by
  obtain ⟨rest, hrest, rfl⟩ := Option.map_eq_some_iff.mp h
  obtain ⟨pre, rfl⟩ := hr l rest hrest
  have hbefore : (pre ++ rest).length - rest.length = pre.length := by simp
  have hlen : (String.ofList (rest.takeWhile isIdent)).length =
      (rest.takeWhile isIdent).length := by
    rw [← String.length_toList, String.toList_ofList]
  dsimp only at hx
  rw [hbefore, hlen, List.getElem?_append_right (Nat.le_add_right ..),
    Nat.add_sub_cancel_left] at hx
  obtain ⟨word, back, hword, hback, hsplit⟩ : ∃ word back, rest.takeWhile isIdent = word ∧
      rest.dropWhile isIdent = back ∧ rest = word ++ back :=
    ⟨_, _, rfl, rfl, List.takeWhile_append_dropWhile.symm⟩
  have hnot := List.head?_dropWhile_not isIdent rest
  rw [hword, hsplit, List.getElem?_append_right (Nat.le_refl _), Nat.sub_self,
    ← List.head?_eq_getElem?] at hx
  rwa [hback, hx] at hnot

/-- No letter follows a name. -/
theorem LineKind.ends_of_ofLine (h : (LineKind.ofLine l).naming? = some n) {x : Char}
    (hx : l[n.before + n.name.length]? = some x) : isIdent x = false := by
  rcases ofReader_of_ofLine h with h | h | h
  · exact Naming.ends_of_ofReader Reader.skipsUnmarked_classLine.skips h hx
  · exact Naming.ends_of_ofReader Reader.skipsUnmarked_functionLine.skips h hx
  · exact Naming.ends_of_ofReader Reader.skipsUnmarked_methodLine.skips h hx

/-- Nothing marked stands before a name. -/
theorem Naming.unmarked_of_ofReader (hr : r.SkipsUnmarked) (h : Naming.ofReader r line = some n) :
    Unmarked (line.take n.before) := by
  obtain ⟨rest, hrest, rfl⟩ := Option.map_eq_some_iff.mp h
  obtain ⟨pre, rfl, hpre⟩ := hr line rest hrest
  simpa using hpre

/-- On its line there are no marks before a name. -/
theorem LineKind.unmarked_of_ofLine (h : (LineKind.ofLine line).naming? = some n) :
    Unmarked (line.take n.before) := by
  rcases ofReader_of_ofLine h with h | h | h
  · exact Naming.unmarked_of_ofReader Reader.skipsUnmarked_classLine h
  · exact Naming.unmarked_of_ofReader Reader.skipsUnmarked_functionLine h
  · exact Naming.unmarked_of_ofReader Reader.skipsUnmarked_methodLine h

/-- What a line declares while the class `current` is open: the kind, the container and the
naming. -/
def LineKind.declared (current : Option Nat) : LineKind → Option (Kind × Option Nat × Naming)
  | .classLine n => some (.klass, none, n)
  | .functionLine n => some (.function, none, n)
  | .methodLine n => current.map fun c => (.method, some c, n)
  | .blankLine | .otherLine => none

/-- The class that is open below a line: a class line opens `new`, and a blank line closes what is
open. -/
def LineKind.openClass (current : Option Nat) (new : Nat) : LineKind → Option Nat
  | .classLine _ => some new
  | .blankLine => none
  | .functionLine _ | .methodLine _ | .otherLine => current

/-- What a line declares is what it names. -/
theorem LineKind.naming?_of_declared {current : Option Nat} {kind : LineKind}
    {r : Kind × Option Nat × Naming} (h : kind.declared current = some r) :
    kind.naming? = some r.2.2 := by
  cases kind with
  | classLine n | functionLine n =>
    obtain rfl := Option.some.inj h
    rfl
  | methodLine n =>
    obtain ⟨c, -, rfl⟩ := Option.map_eq_some_iff.mp h
    rfl
  | blankLine | otherLine => simp [declared] at h

/-! ### Declarations in the text -/

namespace Declaration

/-- The offset at which a declaration of a text is named. -/
def nameOffset (t : Text) (d : Declaration) : Nat :=
  (LineIndex.ofText t).offsetAt d.selection.start

/-- The block of braces that follows the name of a declaration. -/
def block? (t : Text) (d : Declaration) : Option Punctuation.Block :=
  (Punctuation.ofText t).blockAfter (d.nameOffset t + d.name.length)

/-- The offset at which the body of a declaration ends, if it has one: that of the closing brace, or
the end of the text if there is none. -/
def bodyEnd? (t : Text) (d : Declaration) : Option Nat :=
  (d.block? t).map fun block => block.closer.getD t.length

/-- What a declaration says about its place is what is found in the text. -/
structure Stands (t : Text) (d : Declaration) : Prop where
  named : ∃ pre post, t = pre ++ d.name.toList ++ post ∧ pre.length = d.nameOffset t
  start : (LineIndex.ofText t).positionOf (d.nameOffset t) = d.selection.start
  stop : (LineIndex.ofText t).positionOf (d.nameOffset t + d.name.length) = d.selection.stop
  body : d.body = (d.bodyEnd? t).map fun last =>
    ⟨d.line, d.column, ((LineIndex.ofText t).positionOf last).line,
      ((LineIndex.ofText t).positionOf last).column + 1⟩

end Declaration

namespace Outline

variable {t : Text} {d : Declaration}

/-- The declaration read off a line stands there. -/
theorem Source.stands_declaration {l : Text} {k : Nat} (hl : t.lines[k]? = some l) {n : Naming}
    (hn : n.StandsOn l) (kind : Kind) (container : Option Nat) (above : List Text) :
    ((Source.ofText t).declaration kind container (k + 1) above n).Stands t := by
  obtain ⟨a, ha⟩ := Text.exists_hasLine hl
  obtain ⟨pre, post, rfl, hpre⟩ := hn
  have hlen : n.name.length = n.name.toList.length := (String.length_toList).symm
  have hbefore : n.before ≤ (pre ++ n.name.toList ++ post).length := by
    simp only [List.length_append]
    omega
  have hpast : n.before + n.name.length ≤ (pre ++ n.name.toList ++ post).length := by
    simp only [List.length_append]
    omega
  have hoffset : ((Source.ofText t).declaration kind container (k + 1) above n).nameOffset t =
      a + n.before := ha.offsetAt_eq hbefore
  refine ⟨?_, ?_, ?_, ?_⟩
  · obtain ⟨front, back, ht, hfront⟩ := ha.split
    refine ⟨front ++ pre, post ++ back, ?_, ?_⟩
    · rw [ht]
      simp [declaration]
    · rw [hoffset, List.length_append, hfront, hpre]
  · rw [hoffset]
    exact ha.positionOf_eq hbefore
  · rw [hoffset, Nat.add_assoc]
    refine (ha.positionOf_eq hpast).trans ?_
    simp only [declaration, Declaration.selection, Span.stop, Position.mk.injEq]
    omega
  · rw [Declaration.bodyEnd?, Declaration.block?, hoffset]
    have hsame : (Source.ofText t).index.offsetAt ⟨((k + 1 : Nat) : Int), (n.before : Int) + 1⟩ =
        a + n.before := hoffset
    simp only [declaration, hsame, Option.map_map]
    rfl

/-- One line adds what it declares while the class `current` is open, and the lines below are read
while the class `LineKind.openClass` gives is open. -/
theorem Source.declarations_line (src : Source) (line : Nat) (above : List Text)
    (current : Option Nat) (count : Nat) (l : Text) (rest : List Text) :
    src.declarations line above current count (l :: rest) =
      (((LineKind.ofLine l).declared current).map fun r =>
        src.declaration r.1 r.2.1 line above r.2.2).toList ++
        src.declarations (line + 1) (l :: above) ((LineKind.ofLine l).openClass current count)
          (count + ((LineKind.ofLine l).declared current).toList.length) rest := by
  rw [Source.declarations]
  cases LineKind.ofLine l with
  | methodLine n => cases current <;> rfl
  | classLine n | functionLine n | blankLine | otherLine => rfl

/-- One line adds at most one declaration, which is read off it.  Neither what is read nor how the
lines below are read depends on the source or on these lines. -/
theorem Source.declarations_cons (line : Nat) (above : List Text) (current : Option Nat)
    (count : Nat) (l : Text) :
    ∃ (next : Option Nat) (count' : Nat) (read : Option (Kind × Option Nat × Naming)),
      (∀ r ∈ read, (LineKind.ofLine l).naming? = some r.2.2) ∧
      ∀ (src : Source) (rest : List Text), src.declarations line above current count (l :: rest) =
        (read.map fun r => src.declaration r.1 r.2.1 line above r.2.2).toList ++
          src.declarations (line + 1) (l :: above) next count' rest :=
  ⟨_, _, _, fun _ => LineKind.naming?_of_declared, fun src rest =>
    src.declarations_line line above current count l rest⟩

/-- Every declaration is read off a line, each off a line further down than the one before. -/
theorem Source.declarations_lines (src : Source) (lines : List Text) :
    ∀ (line : Nat) (above : List Text) (current : Option Nat) (count : Nat),
      (∀ d ∈ src.declarations line above current count lines,
        ∃ k l n kind container above', lines[k]? = some l ∧
          (LineKind.ofLine l).naming? = some n ∧
          d = src.declaration kind container (line + k) above' n) ∧
      ((src.declarations line above current count lines).map Declaration.line).Pairwise
        (· < ·) := by
  induction lines with
  | nil => exact fun line above current count => ⟨fun d hd => by simp [declarations] at hd, .nil⟩
  | cons l lines ih =>
    intro line above current count
    obtain ⟨next, count', read, hread, hcons⟩ :=
      Source.declarations_cons line above current count l
    obtain ⟨hmem, hsorted⟩ := ih (line + 1) (l :: above) next count'
    have hlater : ∀ d ∈ src.declarations (line + 1) (l :: above) next count' lines,
        ∃ k l' n kind container above', (l :: lines)[k + 1]? = some l' ∧
          (LineKind.ofLine l').naming? = some n ∧
          d = src.declaration kind container (line + (k + 1)) above' n := by
      intro d hd
      obtain ⟨k, l', n, kind, container, above', hk, hn, rfl⟩ := hmem d hd
      refine ⟨k, l', n, kind, container, above', by simpa using hk, hn, ?_⟩
      rw [Nat.add_assoc, Nat.add_comm 1 k]
    rw [hcons]
    cases read with
    | none =>
      refine ⟨fun d hd => ?_, hsorted⟩
      obtain ⟨k, hk⟩ := hlater d hd
      exact ⟨k + 1, hk⟩
    | some r =>
      refine ⟨fun d hd => ?_, ?_⟩
      · rcases List.mem_cons.mp hd with rfl | hd
        · exact ⟨0, l, r.2.2, r.1, r.2.1, above, rfl, hread r rfl, rfl⟩
        · obtain ⟨k, hk⟩ := hlater d hd
          exact ⟨k + 1, hk⟩
      · rw [Option.map_some, Option.toList_some, List.singleton_append, List.map_cons,
          List.pairwise_cons]
        refine ⟨fun x hx => ?_, hsorted⟩
        obtain ⟨d, hd, rfl⟩ := List.mem_map.mp hx
        obtain ⟨k, l', n', kind', container', above', -, -, rfl⟩ := hlater d hd
        simp only [declaration]
        omega

/-- **The declarations of a text stand where they say.** -/
theorem stands_of_mem (h : d ∈ (ofText t).declarations) : d.Stands t := by
  obtain ⟨k, l, n, kind, container, above, hl, hn, rfl⟩ :=
    ((Source.ofText t).declarations_lines t.lines 1 [] none 0).1 d h
  rw [Nat.add_comm]
  exact Source.stands_declaration hl (LineKind.standsOn_of_ofLine hn) kind container above

/-- Where the name of a declaration is found on its line. -/
theorem exists_line_of_mem (h : d ∈ (ofText t).declarations) :
    ∃ k a l n, t.HasLine k a l ∧ (LineKind.ofLine l).naming? = some n ∧ d.line = (k : Int) + 1 ∧
      d.name = n.name ∧ d.nameOffset t = a + n.before ∧ n.before + n.name.length ≤ l.length := by
  obtain ⟨k, l, n, kind, container, above, hl, hn, rfl⟩ :=
    ((Source.ofText t).declarations_lines t.lines 1 [] none 0).1 d h
  rw [Nat.add_comm 1 k]
  obtain ⟨a, ha⟩ := Text.exists_hasLine hl
  have hle : n.before + n.name.length ≤ l.length := by
    obtain ⟨pre, post, rfl, hpre⟩ := LineKind.standsOn_of_ofLine hn
    have hlen : n.name.toList.length = n.name.length := String.length_toList
    simp only [List.length_append]
    omega
  exact ⟨k, a, l, n, ha, hn, rfl, rfl, ha.offsetAt_eq (by omega), hle⟩

/-- A declared name is not followed by an identifier character. -/
theorem name_ends_of_mem (h : d ∈ (ofText t).declarations) {x : Char}
    (hx : t[d.nameOffset t + d.name.length]? = some x) : isIdent x = false := by
  obtain ⟨k, a, l, n, ha, hn, -, hname, hoffset, hle⟩ := exists_line_of_mem h
  have hx' : t[a + (n.before + n.name.length)]? = some x := by
    rwa [← Nat.add_assoc, ← hoffset, ← hname]
  rcases Nat.eq_or_lt_of_le hle with hend | hlt
  · rw [hend] at hx'
    rcases ha.break_behind hx' with rfl | rfl <;> decide
  · obtain ⟨front, back, ht, hfront⟩ := ha.split
    rw [ht, ← hfront, List.append_assoc, List.getElem?_append_right (Nat.le_add_right ..),
      Nat.add_sub_cancel_left, List.getElem?_append_left hlt] at hx'
    exact LineKind.ends_of_ofLine hn hx'

/-- No two declarations of a text stand on one line. -/
theorem lines_sorted (t : Text) :
    ((ofText t).declarations.map Declaration.line).Pairwise (· < ·) :=
  ((Source.ofText t).declarations_lines t.lines 1 [] none 0).2

end Outline

/-! ### Lines and offsets side by side -/

/-- The lines are as many as the index has. -/
theorem Text.length_lines (t : Text) : t.lines.length = (LineIndex.ofText t).lineCount := by
  obtain ⟨rows, -, hstarts, hlines⟩ := t.exists_rows
  rw [LineIndex.lineCount, ← hstarts, ← hlines, List.length_map, List.length_map]

/-- The character in a column of a line is the one at the offset of the column. -/
theorem Text.HasLine.getElem?_offsetAt {t : Text} {k a c : Nat} (h : t.HasLine k a l)
    (hc : c < l.length) :
    t[(LineIndex.ofText t).offsetAt ⟨(k : Int) + 1, (c : Int) + 1⟩]? = l[c]? := by
  rw [h.offsetAt_eq (Nat.le_of_lt hc)]
  obtain ⟨pre, post, ht, hpre⟩ := h.split
  rw [ht, ← hpre, List.append_assoc, List.getElem?_append_right (Nat.le_add_right ..),
    Nat.add_sub_cancel_left, List.getElem?_append_left hc]

/-- No offset of a position is past the end of the text. -/
theorem LineIndex.positionAt_offsetAt (ix : LineIndex) (p : Position) :
    ix.positionAt (ix.offsetAt p) = ix.positionOf (ix.offsetAt p) := by
  have hle : ix.offsetAt p ≤ ix.length := Nat.min_le_right _ _
  rw [positionAt, Int.toNat_natCast, Nat.min_eq_left hle]

/-- At its offset stands the name. -/
theorem Declaration.Stands.take_drop {t : Text} {d : Declaration} (h : d.Stands t) :
    (t.drop (d.nameOffset t)).take d.name.length = d.name.toList := by
  obtain ⟨pre, post, ht, hpre⟩ := h.named
  rw [← hpre, ht, List.append_assoc, List.drop_left, ← String.length_toList, List.take_left]

namespace Outline

/-- **Lines and line starts agree, and declarations point at their names.**  A text has as many
lines as line starts.  In each column of a line stands what stands in the text at the offset of that
column.  At the offset of its position stands the name of a declaration, and the offset has that
position. -/
theorem lines_and_index_agree (t : Text) :
    (ofText t).lineCount = (LineIndex.ofText t).lineCount ∧
      (∀ (i : Nat) (l : Text), t.lines[i]? = some l → ∀ c : Nat, c < l.length →
        t[(LineIndex.ofText t).offsetAt ⟨(i : Int) + 1, (c : Int) + 1⟩]? = l[c]?) ∧
      ∀ d ∈ (ofText t).declarations,
        (t.drop ((LineIndex.ofText t).offsetAt d.selection.start)).take d.name.length =
            d.name.toList ∧
          (LineIndex.ofText t).positionAt ((LineIndex.ofText t).offsetAt d.selection.start) =
            d.selection.start := by
  refine ⟨t.length_lines, fun i l hl c hc => ?_, fun d hd => ⟨?_, ?_⟩⟩
  · obtain ⟨a, ha⟩ := Text.exists_hasLine hl
    exact ha.getElem?_offsetAt hc
  · exact (stands_of_mem hd).take_drop
  · rw [LineIndex.positionAt_offsetAt]
    exact (stands_of_mem hd).start

/-- All three line breaks and an empty line, and no break at the end. -/
def mixedBreaks : Text := ("// x\r\rclass K \x7b\r\n" ++ "  run() {}\n\x7d").toList

/-- The method is on the fourth line, and its name is found in the third column there. -/
theorem mixedBreaks_agree :
    mixedBreaks.lines.map List.length = [4, 0, 9, 10, 1] ∧
      (LineIndex.ofText mixedBreaks).lineCount = 5 ∧
      mixedBreaks[(LineIndex.ofText mixedBreaks).offsetAt ⟨4, 3⟩]? = some 'r' ∧
      ∃ d ∈ (ofText mixedBreaks).declarations, d.kind = .method ∧
        (mixedBreaks.drop ((LineIndex.ofText mixedBreaks).offsetAt d.selection.start)).take 3 =
          "run".toList := by
  obtain ⟨hcount, hcolumns, hnames⟩ := lines_and_index_agree mixedBreaks
  have hmethod : ∃ d ∈ (ofText mixedBreaks).declarations, d.kind = .method ∧ d.name = "run" := by
    decide +kernel
  obtain ⟨d, hd, hkind, hname⟩ := hmethod
  have hline : mixedBreaks.lines[3]? = some "  run() {}".toList := by decide +kernel
  refine ⟨by decide +kernel, ?_, hcolumns 3 _ hline 2 (by decide), d, hd, hkind, ?_⟩
  · rw [← hcount]
    decide +kernel
  · have hslice := (hnames d hd).1
    rwa [hname] at hslice

end Outline
end SymbolAtlas
