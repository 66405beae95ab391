import Mathlib.Data.List.TakeWhile
import SymbolAtlas.Text.Lines

/-!
# Lines and offsets

Cutting a text into lines and noting where they start are two walks over the text.  `Rows` says once
what both see: lines without breaks in them, a break between two of them, and for each line the
offset at which it starts (`Text.exists_rows`).

With the starts in increasing order an offset lies on one line (`LineIndex.OnLine`), which gives its
position.  Positions come in the order of the offsets (`LineIndex.positionOf_le_iff`), and an offset
on a line is found again from its position (`Text.HasLine.offsetAt_eq`).
-/

namespace SymbolAtlas

/-! ### Texts as rows -/

/-- The three line breaks. -/
inductive IsBreak : Text → Prop
  | lineFeed : IsBreak ['\n']
  | carriageReturn : IsBreak ['\r']
  | both : IsBreak ['\r', '\n']

/-- A text without line breaks. -/
def Unbroken (l : Text) : Prop := ∀ c ∈ l, c ≠ '\n' ∧ c ≠ '\r'

/-- The lines of a text that starts at offset `o`, each with the offset at which it starts itself.
A carriage return is a break of its own only if no line feed follows. -/
inductive Rows : Nat → Text → List (Nat × Text) → Prop
  | last {o : Nat} {l : Text} (hl : Unbroken l) : Rows o l [(o, l)]
  | more {o : Nat} {l br t : Text} {rows : List (Nat × Text)} (hl : Unbroken l) (hbr : IsBreak br)
      (hcr : br = ['\r'] → t.head? ≠ some '\n') (h : Rows (o + l.length + br.length) t rows) :
      Rows o (l ++ br ++ t) ((o, l) :: rows)

theorem IsBreak.length_pos {br : Text} (h : IsBreak br) : 0 < br.length := by
  cases h <;> decide

theorem Unbroken.reverse_cons {front : Text} (h : Unbroken front.reverse) {c : Char}
    (hn : c ≠ '\n') (hr : c ≠ '\r') : Unbroken (c :: front).reverse := by
  intro x hx
  rw [List.reverse_cons, List.mem_append, List.mem_singleton] at hx
  rcases hx with hx | rfl
  · exact h x hx
  · exact ⟨hn, hr⟩

/-- Where a line ends, what the walks see behind the break follows what they see on the line. -/
theorem Text.exists_rows_break {o : Nat} {front br t : Text} (hfront : Unbroken front.reverse)
    (hbr : IsBreak br) (hcr : br = ['\r'] → t.head? ≠ some '\n')
    (h : ∃ rows, Rows (o + front.length + br.length) t rows ∧
      rows.map Prod.fst = (o + front.length + br.length) ::
        breakEnds (o + front.length + br.length) t ∧ rows.map Prod.snd = linesFrom [] t) :
    ∃ rows, Rows o (front.reverse ++ (br ++ t)) rows ∧
      rows.map Prod.fst = o :: (o + front.length + br.length) ::
        breakEnds (o + front.length + br.length) t ∧
      rows.map Prod.snd = front.reverse :: linesFrom [] t := by
  obtain ⟨rows, hrows, hstarts, hlines⟩ := h
  refine ⟨(o, front.reverse) :: rows, ?_, ?_, ?_⟩
  · rw [← List.append_assoc]
    exact .more hfront hbr hcr (by simpa using hrows)
  · rw [List.map_cons, hstarts]
  · rw [List.map_cons, hlines]

/-- The two walks go side by side, with `front` the line so far. -/
theorem Text.rows_linesFrom (front t : Text) (hfront : Unbroken front.reverse) (o : Nat) :
    ∃ rows, Rows o (front.reverse ++ t) rows ∧
      rows.map Prod.fst = o :: breakEnds (o + front.length) t ∧
      rows.map Prod.snd = linesFrom front t := by
  have hnil : Unbroken [].reverse := fun c hc => by simp at hc
  fun_induction linesFrom front t generalizing o with
  | case1 front =>
    rw [List.append_nil]
    exact ⟨_, .last hfront, rfl, rfl⟩
  | case2 front t ih => exact exists_rows_break hfront .both (by simp) (ih hnil _)
  | case3 front t ht ih =>
    have hbreak : breakEnds (o + front.length) ('\r' :: t) =
        (o + front.length + 1) :: breakEnds (o + front.length + 1) t := by
      rw [breakEnds.eq_def]
      split <;> grind
    rw [hbreak]
    refine exists_rows_break hfront .carriageReturn (fun _ hhead => ?_) (ih hnil _)
    cases t with
    | nil => simp at hhead
    | cons c t => exact ht t (by rw [List.head?_cons] at hhead; rw [Option.some.inj hhead])
  | case4 front t ih => exact exists_rows_break hfront .lineFeed (by simp) (ih hnil _)
  | case5 front c t hcrlf hcr hlf ih =>
    have hbreak : breakEnds (o + front.length) (c :: t) = breakEnds (o + front.length + 1) t := by
      rw [breakEnds.eq_def]
      split <;> grind
    rw [hbreak]
    obtain ⟨rows, hrows, hstarts, hlines⟩ := ih (hfront.reverse_cons hlf hcr) o
    exact ⟨rows, by simpa using hrows, hstarts, hlines⟩

/-- **Lines and line starts are two views of the same rows.** -/
theorem Text.exists_rows (t : Text) :
    ∃ rows, Rows 0 t rows ∧ rows.map Prod.fst = (LineIndex.ofText t).starts ∧
      rows.map Prod.snd = t.lines :=
  rows_linesFrom [] t (fun c hc => by simp at hc) 0

namespace Rows

variable {a : Nat} {l : Text}

variable {o : Nat} {t : Text} {rows : List (Nat × Text)}

theorem head (h : Rows o t rows) : ∃ l rest, rows = (o, l) :: rest := by
  cases h with
  | last hl => exact ⟨_, _, rfl⟩
  | more hl hbr hcr h => exact ⟨_, _, rfl⟩

/-- A line stands in the text at its offset, and the next one starts behind it. -/
theorem at_row (h : Rows o t rows) {k : Nat} (hk : rows[k]? = some (a, l)) :
    ∃ pre post, t = pre ++ l ++ post ∧ a = o + pre.length ∧
      ∀ b l', rows[k + 1]? = some (b, l') → a + l.length < b := by
  induction h generalizing k with
  | last hl =>
    cases k with
    | zero =>
      obtain ⟨rfl, rfl⟩ : _ = a ∧ _ = l := by simpa using hk
      exact ⟨[], [], by simp, by simp, by simp⟩
    | succ k => simp at hk
  | @more o l' br t rows hl hbr hcr h ih =>
    cases k with
    | zero =>
      obtain ⟨rfl, rfl⟩ : o = a ∧ l' = l := by simpa using hk
      obtain ⟨l₁, rest, rfl⟩ := h.head
      refine ⟨[], br ++ t, by simp, by simp, fun b l₂ hb => ?_⟩
      obtain ⟨rfl, -⟩ : o + l'.length + br.length = b ∧ l₁ = l₂ := by simpa using hb
      have := hbr.length_pos
      omega
    | succ k =>
      obtain ⟨pre, post, rfl, rfl, hnext⟩ := ih (k := k) (by simpa using hk)
      refine ⟨l' ++ br ++ pre, post, by simp, ?_, fun b l₂ hb => ?_⟩
      · simp only [List.length_append]
        omega
      · exact hnext b l₂ (by simpa using hb)

/-- Behind a line there is a line break, or nothing. -/
theorem break_behind (h : Rows o t rows) {k : Nat} (hk : rows[k]? = some (a, l)) {x : Char}
    (hx : t[a - o + l.length]? = some x) : x = '\n' ∨ x = '\r' := by
  induction h generalizing k with
  | last hl =>
    cases k with
    | zero =>
      obtain ⟨rfl, rfl⟩ : _ = a ∧ _ = l := by simpa using hk
      simp at hx
    | succ k => simp at hk
  | @more o l' br t rows hl hbr hcr h ih =>
    cases k with
    | zero =>
      obtain ⟨rfl, rfl⟩ : o = a ∧ l' = l := by simpa using hk
      rw [Nat.sub_self, Nat.zero_add, List.append_assoc, List.getElem?_append_right (Nat.le_refl _),
        Nat.sub_self] at hx
      cases hbr with
      | lineFeed => exact Or.inl (Option.some.inj hx).symm
      | carriageReturn => exact Or.inr (Option.some.inj hx).symm
      | both => exact Or.inr (Option.some.inj hx).symm
    | succ k =>
      have hk' : rows[k]? = some (a, l) := by simpa using hk
      obtain ⟨pre, post, -, rfl, -⟩ := h.at_row hk'
      refine ih hk' ?_
      rw [List.getElem?_append_right (by simp only [List.length_append]; omega)] at hx
      rw [← hx]
      congr 1
      simp only [List.length_append]
      omega

theorem le_of_mem (h : Rows o t rows) (hmem : (a, l) ∈ rows) : o ≤ a := by
  obtain ⟨k, hk⟩ := List.mem_iff_getElem?.mp hmem
  obtain ⟨pre, post, -, rfl, -⟩ := h.at_row hk
  exact Nat.le_add_right o pre.length

/-- Lines start one after the other. -/
theorem sorted (h : Rows o t rows) : (rows.map Prod.fst).Pairwise (· < ·) := by
  induction h with
  | last hl => exact List.pairwise_singleton ..
  | more hl hbr hcr h ih =>
    rw [List.map_cons, List.pairwise_cons]
    refine ⟨fun b hb => ?_, ih⟩
    obtain ⟨⟨b, l⟩, hmem, rfl⟩ := List.mem_map.mp hb
    have hle := h.le_of_mem hmem
    have hpos := hbr.length_pos
    omega

end Rows

/-! ### Order of positions -/

namespace Position

theorem le_iff {p q : Position} :
    p.le q = true ↔ p.line < q.line ∨ p.line = q.line ∧ p.column ≤ q.column := by
  simp [le]

theorem le_refl (p : Position) : p.le p = true := le_iff.mpr (Or.inr ⟨rfl, Int.le_refl _⟩)

theorem le_trans {p q r : Position} (h : p.le q = true) (h' : q.le r = true) : p.le r = true := by
  rw [le_iff] at h h' ⊢
  omega

theorem le_total (p q : Position) : p.le q = true ∨ q.le p = true := by
  rw [le_iff, le_iff]
  omega

end Position

/-- A span contains what lies between its ends. -/
theorem Span.contains_iff {s : Span} {p : Position} :
    s.contains p = true ↔ s.start.le p = true ∧ p.le s.stop = true := by
  simp only [contains, Position.le_iff, start, stop, Bool.and_eq_true, Bool.not_eq_true',
    Bool.and_eq_false_iff, decide_eq_true_eq, decide_eq_false_iff_not, beq_eq_false_iff_ne]
  omega

/-! ### Offsets on lines -/

namespace LineIndex

variable {ix : LineIndex} {a k o o' : Nat}

/-- Lines start one after the other, the first one at the beginning. -/
structure Ascending (ix : LineIndex) : Prop where
  first : ix.starts[0]? = some 0
  sorted : ix.starts.Pairwise (· < ·)

/-- The first line starts at zero, the others in order. -/
theorem ascending_ofText (t : Text) : (ofText t).Ascending := by
  obtain ⟨rows, hrows, hstarts, -⟩ := t.exists_rows
  exact ⟨rfl, hstarts ▸ hrows.sorted⟩

/-- The offset `o` lies on the line of index `k`, which starts at `a`. -/
structure OnLine (ix : LineIndex) (o k a : Nat) : Prop where
  start : ix.starts[k]? = some a
  le : a ≤ o
  lt : ∀ b, ix.starts[k + 1]? = some b → o < b

/-- Every offset is on a line. -/
theorem exists_onLine (h : ix.Ascending) (o : Nat) : ∃ k a, ix.OnLine o k a := by
  have hlist : ∀ (starts : List Nat) (first : Nat), starts[0]? = some first → first ≤ o →
      ∃ k a, starts[k]? = some a ∧ a ≤ o ∧ ∀ b, starts[k + 1]? = some b → o < b := by
    intro starts
    induction starts with
    | nil => exact fun first hfirst => by simp at hfirst
    | cons x starts ih =>
      intro first hfirst hle
      obtain rfl : x = first := by simpa using hfirst
      cases hnext : starts[0]? with
      | none => exact ⟨0, x, rfl, hle, fun b hb => by simp [hnext] at hb⟩
      | some y =>
        by_cases hy : y ≤ o
        · obtain ⟨k, a, hk, ha, hlt⟩ := ih y hnext hy
          exact ⟨k + 1, a, by simpa using hk, ha, fun b hb => hlt b (by simpa using hb)⟩
        · refine ⟨0, x, rfl, hle, fun b hb => ?_⟩
          obtain rfl : y = b := by simpa [hnext] using hb
          omega
  obtain ⟨k, a, hk, ha, hlt⟩ := hlist ix.starts 0 h.first (Nat.zero_le o)
  exact ⟨k, a, hk, ha, hlt⟩

theorem start_lt (h : ix.Ascending) {j b : Nat} (hj : ix.starts[j]? = some a)
    (hk : ix.starts[k]? = some b) (hjk : j < k) : a < b := by
  obtain ⟨hjl, rfl⟩ := List.getElem?_eq_some_iff.mp hj
  obtain ⟨hkl, rfl⟩ := List.getElem?_eq_some_iff.mp hk
  exact List.pairwise_iff_getElem.mp h.sorted j k hjl hkl hjk

/-- The lines that start by an offset are those up to its own. -/
theorem takeWhile_starts {starts : List Nat} (hsorted : starts.Pairwise (· < ·))
    (hk : starts[k]? = some a) (ha : a ≤ o) (hlt : ∀ b, starts[k + 1]? = some b → o < b) :
    starts.takeWhile (· ≤ o) = starts.take (k + 1) := by
  induction starts generalizing k with
  | nil => simp
  | cons x starts ih =>
    rw [List.pairwise_cons] at hsorted
    cases k with
    | zero =>
      obtain rfl : x = a := by simpa using hk
      have hrest : starts.takeWhile (· ≤ o) = [] := by
        cases starts with
        | nil => rfl
        | cons b rest =>
          have hb : o < b := hlt b rfl
          exact List.takeWhile_cons_of_neg (by simpa using hb)
      rw [List.takeWhile_cons_of_pos (by simpa using ha), hrest]
      rfl
    | succ k =>
      have hk' : starts[k]? = some a := by simpa using hk
      have hx : x < a := hsorted.1 a (List.mem_of_getElem? hk')
      rw [List.takeWhile_cons_of_pos (by simp only [decide_eq_true_eq]; omega),
        ih hsorted.2 hk' fun b hb => hlt b (by simpa using hb)]
      rfl

/-- **The position of an offset** is its line, and its distance from where that starts. -/
theorem positionOf_eq (h : ix.Ascending) (ho : ix.OnLine o k a) :
    ix.positionOf o = ⟨(k : Int) + 1, ((o - a : Nat) : Int) + 1⟩ := by
  have hlen : k < ix.starts.length := (List.getElem?_eq_some_iff.mp ho.start).1
  have hlast : (ix.starts.take (k + 1)).getLastD 0 = a := by
    have htake := List.take_succ_eq_append_getElem hlen
    rw [htake, (List.getElem?_eq_some_iff.mp ho.start).2]
    simp
  rw [positionOf, takeWhile_starts h.sorted ho.start ho.le ho.lt, hlast,
    List.length_take, Nat.min_eq_left (by omega)]
  rfl

/-- An offset further on is on the same line or on a later one. -/
theorem OnLine.mono (h : ix.Ascending) {k' a' : Nat} (ho : ix.OnLine o k a)
    (ho' : ix.OnLine o' k' a') (hle : o ≤ o') : k = k' ∧ a = a' ∨ k < k' := by
  rcases Nat.lt_trichotomy k k' with hlt | heq | hgt
  · exact Or.inr hlt
  · subst heq
    exact Or.inl ⟨rfl, Option.some.inj (ho.start.symm.trans ho'.start)⟩
  · -- the line after that of `o'` starts behind `o'` and by `o`
    exfalso
    have hlen : k < ix.starts.length := (List.getElem?_eq_some_iff.mp ho.start).1
    have hnext : ix.starts[k' + 1]? = some (ix.starts.get ⟨k' + 1, by omega⟩) :=
      List.getElem?_eq_getElem _
    have hlt := ho'.lt _ hnext
    have hle' : ix.starts.get ⟨k' + 1, by omega⟩ ≤ a := by
      rcases Nat.lt_or_ge (k' + 1) k with hk | hk
      · exact Nat.le_of_lt (start_lt h hnext ho.start hk)
      · obtain rfl : k = k' + 1 := by omega
        exact Nat.le_of_eq (Option.some.inj (hnext.symm.trans ho.start))
    have := ho.le
    omega

/-- An offset is at or before `d` columns past another one exactly if it is at or before that one,
unless it is one of the `d` offsets behind it. -/
theorem positionOf_le_shift (h : ix.Ascending) {d : Nat} (hd : o ≤ o' ∨ o' + d < o) :
    (ix.positionOf o).le ⟨(ix.positionOf o').line, (ix.positionOf o').column + d⟩ = true ↔
      o ≤ o' := by
  obtain ⟨k, a, ho⟩ := exists_onLine h o
  obtain ⟨k', a', ho'⟩ := exists_onLine h o'
  rw [positionOf_eq h ho, positionOf_eq h ho', Position.le_iff]
  dsimp only
  have hle := ho.le
  have hle' := ho'.le
  constructor
  · intro hpos
    by_contra hlt
    rcases ho'.mono h ho (by omega) with ⟨rfl, rfl⟩ | hk
    · omega
    · omega
  · intro hoo
    rcases ho.mono h ho' hoo with ⟨rfl, rfl⟩ | hk
    · omega
    · omega

/-- **Positions come in the order of the offsets.** -/
theorem positionOf_le_iff (h : ix.Ascending) :
    (ix.positionOf o).le (ix.positionOf o') = true ↔ o ≤ o' := by
  have hd : o ≤ o' ∨ o' + 0 < o := by omega
  have hshift := positionOf_le_shift h hd
  rwa [Int.natCast_zero, Int.add_zero] at hshift

end LineIndex

/-! ### Columns of a line -/

/-- The text has the line `l` with index `k`, and it starts at `a`. -/
structure Text.HasLine (t : Text) (k a : Nat) (l : Text) : Prop where
  line : t.lines[k]? = some l
  start : (LineIndex.ofText t).starts[k]? = some a
  split : ∃ pre post, t = pre ++ l ++ post ∧ pre.length = a
  next : ∀ b, (LineIndex.ofText t).starts[k + 1]? = some b → a + l.length < b

theorem Text.exists_hasLine {t : Text} {k : Nat} {l : Text} (h : t.lines[k]? = some l) :
    ∃ a, t.HasLine k a l := by
  obtain ⟨rows, hrows, hstarts, hlines⟩ := t.exists_rows
  rw [← hlines, List.getElem?_map] at h
  obtain ⟨⟨a, l'⟩, hk, rfl⟩ := Option.map_eq_some_iff.mp h
  obtain ⟨pre, post, ht, ha, hnext⟩ := hrows.at_row hk
  refine ⟨a, ⟨?_, ?_, ⟨pre, post, ht, by omega⟩, fun b hb => ?_⟩⟩
  · rw [← hlines, List.getElem?_map, hk]
    rfl
  · rw [← hstarts, List.getElem?_map, hk]
    rfl
  · rw [← hstarts, List.getElem?_map] at hb
    obtain ⟨⟨b', l''⟩, hk', rfl⟩ := Option.map_eq_some_iff.mp hb
    exact hnext b' l'' hk'

namespace Text.HasLine

variable {t l : Text} {k a c : Nat}

theorem onLine (h : t.HasLine k a l) (hc : c ≤ l.length) :
    (LineIndex.ofText t).OnLine (a + c) k a := by
  refine ⟨h.start, Nat.le_add_right a c, fun b hb => ?_⟩
  have := h.next b hb
  omega

/-- Behind a line there is a line break, or nothing. -/
theorem break_behind (h : t.HasLine k a l) {x : Char} (hx : t[a + l.length]? = some x) :
    x = '\n' ∨ x = '\r' := by
  obtain ⟨rows, hrows, hstarts, hlines⟩ := t.exists_rows
  have hstart := h.start
  have hline := h.line
  rw [← hstarts, List.getElem?_map] at hstart
  rw [← hlines, List.getElem?_map] at hline
  obtain ⟨row, hk, rfl⟩ := Option.map_eq_some_iff.mp hstart
  obtain rfl : row.2 = l := by simpa [hk] using hline
  exact hrows.break_behind hk hx

/-- An offset on a line is found from its position. -/
theorem positionOf_eq (h : t.HasLine k a l) (hc : c ≤ l.length) :
    (LineIndex.ofText t).positionOf (a + c) = ⟨(k : Int) + 1, (c : Int) + 1⟩ := by
  rw [LineIndex.positionOf_eq (LineIndex.ascending_ofText t) (h.onLine hc), Nat.add_sub_cancel_left]

/-- A column of a line is found at its offset. -/
theorem offsetAt_eq (h : t.HasLine k a l) (hc : c ≤ l.length) :
    (LineIndex.ofText t).offsetAt ⟨(k : Int) + 1, (c : Int) + 1⟩ = a + c := by
  have hlen : k < (LineIndex.ofText t).lineCount := (List.getElem?_eq_some_iff.mp h.start).1
  have hline : min ((k : Int) + 1 - 1).toNat ((LineIndex.ofText t).lineCount - 1) = k := by omega
  have hstart : (LineIndex.ofText t).starts.getD k 0 = a := by
    rw [List.getD_eq_getElem?_getD, h.start]
    rfl
  have hend : a + c ≤ (LineIndex.ofText t).length := by
    obtain ⟨pre, post, rfl, rfl⟩ := h.split
    simp only [LineIndex.ofText, List.length_append]
    omega
  rw [LineIndex.offsetAt]
  dsimp only
  rw [hline, hstart, show ((c : Int) + 1 - 1).toNat = c by omega, Nat.min_eq_left hend]

end Text.HasLine

end SymbolAtlas
