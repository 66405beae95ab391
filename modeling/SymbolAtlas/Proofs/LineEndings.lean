import Mathlib.Order.Monotone.Basic
import SymbolAtlas.Proofs.Appending
import SymbolAtlas.Proofs.FileSpan

/-!
# Line feeds alone, or behind carriage returns

A line may end with a line feed alone or with a carriage return before it.  `Text.windowsBreaks`
turns the breaks of the first kind into those of the second.  An offset `i` of the text then becomes
`Text.widened t i`, and its position stays the same (`Text.positionOf_widened`).

Strings and comments are read over both kinds of breaks in the same way (`Mode.step_lineBreak`),
except that a backslash escapes one character only: behind a backslash in a string of single or
double quotes the string goes on over a line feed, but not over a carriage return and a line feed.
Where there is no such place the marks move with the offsets (`marksFrom_windowsBreaks`), blocks
move with their marks (`Punctuation.blockAfter_shift`), and the outline does not change at all
(`Outline.unchanged_by_windowsBreaks`).  `Outline.escaped_break_differs` has a text with such a
place.
-/

namespace SymbolAtlas

/-! ### Wide line breaks -/

namespace Text

/-- The text with a carriage return before every line feed. -/
def windowsBreaks (t : Text) : Text := t.flatMap fun c => if c = '\n' then ['\r', '\n'] else [c]

/-- Where an offset of a text goes when every line feed gets a carriage return before it. -/
def widened (t : Text) (i : Nat) : Nat := i + (t.take i).count '\n'

theorem windowsBreaks_append (a b : Text) :
    (a ++ b).windowsBreaks = a.windowsBreaks ++ b.windowsBreaks := List.flatMap_append

theorem windowsBreaks_lineFeed (t : Text) :
    windowsBreaks ('\n' :: t) = '\r' :: '\n' :: t.windowsBreaks := rfl

theorem windowsBreaks_cons {c : Char} (hc : c ≠ '\n') (t : Text) :
    windowsBreaks (c :: t) = c :: t.windowsBreaks := by
  simp [windowsBreaks, hc]

/-- A text grows by one character for each line break. -/
theorem length_windowsBreaks (t : Text) : t.windowsBreaks.length = t.length + t.count '\n' := by
  induction t with
  | nil => rfl
  | cons c t ih =>
    by_cases hc : c = '\n'
    · subst hc
      rw [windowsBreaks_lineFeed, List.length_cons, List.length_cons, List.length_cons, ih,
        List.count_cons_self]
      omega
    · rw [windowsBreaks_cons hc, List.length_cons, List.length_cons, ih,
        List.count_cons_of_ne hc]
      omega

/-- Offsets keep their order. -/
theorem strictMono_widened (t : Text) : StrictMono t.widened := by
  intro i j hij
  have hcount := ((List.take_prefix_take_left (l := t) (Nat.le_of_lt hij)).sublist).count_le '\n'
  show i + _ < j + _
  omega

/-- An offset is moved by the breaks before it. -/
theorem length_windowsBreaks_take {t : Text} {i : Nat} (hi : i ≤ t.length) :
    (windowsBreaks (t.take i)).length = t.widened i := by
  rw [length_windowsBreaks, List.length_take, Nat.min_eq_left hi]
  rfl

theorem widened_length (t : Text) : t.widened t.length = t.windowsBreaks.length := by
  rw [← length_windowsBreaks_take (Nat.le_refl _), List.take_length]

/-- Only a line feed gets wider. -/
theorem widened_succ {t : Text} {i : Nat} (h : t[i]? ≠ some '\n') :
    t.widened (i + 1) = t.widened i + 1 := by
  have hnone : (t[i]?.toList).count '\n' = 0 := by
    refine List.count_eq_zero.mpr fun hmem => h ?_
    exact Option.mem_toList.mp hmem
  rw [widened, widened, List.take_add_one, List.count_append, hnone]
  omega

/-- The text up to an offset, and from there on, with wide breaks. -/
theorem split_widened (t : Text) (i : Nat) :
    t.windowsBreaks.take (t.widened i) = windowsBreaks (t.take i) ∧
      t.windowsBreaks.drop (t.widened i) = windowsBreaks (t.drop i) := by
  rcases Nat.le_total i t.length with hi | hi
  · have hsplit : t.windowsBreaks = windowsBreaks (t.take i) ++ windowsBreaks (t.drop i) := by
      rw [← windowsBreaks_append, List.take_append_drop]
    rw [hsplit]
    exact ⟨List.take_left' (length_windowsBreaks_take hi),
      List.drop_left' (length_windowsBreaks_take hi)⟩
  · have hle : t.windowsBreaks.length ≤ t.widened i := by
      rw [← widened_length]
      exact (strictMono_widened t).monotone hi
    rw [List.take_of_length_le hle, List.take_of_length_le hi, List.drop_of_length_le hle,
      List.drop_of_length_le hi]
    exact ⟨rfl, rfl⟩

/-- The text between two offsets, with wide breaks. -/
theorem slice_windowsBreaks {t : Text} {i j : Nat} (hij : i ≤ j) :
    (t.windowsBreaks.drop (t.widened i)).take (t.widened j - t.widened i) =
      windowsBreaks ((t.drop i).take (j - i)) := by
  have hbefore : widened (t.take j) i = t.widened i := by
    rw [widened, widened, List.take_take, Nat.min_eq_left hij]
  rw [← List.drop_take, (split_widened t j).1, ← hbefore, (split_widened (t.take j) i).2,
    List.drop_take]

/-! ### Lines and positions -/

/-- The lines stay the same. -/
theorem linesFrom_windowsBreaks {t : Text} (ht : '\r' ∉ t) (front : Text) :
    linesFrom front t.windowsBreaks = linesFrom front t := by
  induction t generalizing front with
  | nil => rfl
  | cons c t ih =>
    have hreturn : c ≠ '\r' := fun hc => ht (hc ▸ List.mem_cons_self ..)
    have ih' := ih fun hmem => ht (List.mem_cons_of_mem c hmem)
    by_cases hc : c = '\n'
    · subst hc
      rw [windowsBreaks_lineFeed, linesFrom, linesFrom, ih']
    · rw [windowsBreaks_cons hc, linesFrom, linesFrom, ih'] <;> simp_all

/-- **Both kinds of breaks cut a text into the same lines.** -/
theorem lines_windowsBreaks {t : Text} (ht : '\r' ∉ t) : t.windowsBreaks.lines = t.lines :=
  linesFrom_windowsBreaks ht []

/-- The text does not end within a line break. -/
theorem getLast?_windowsBreaks {t : Text} (ht : '\r' ∉ t) :
    t.windowsBreaks.getLast? ≠ some '\r' := by
  intro hlast
  induction t using List.reverseRecOn with
  | nil => simp [windowsBreaks] at hlast
  | append_singleton t c ih =>
    rw [windowsBreaks_append] at hlast
    by_cases hc : c = '\n'
    · subst hc
      simp [windowsBreaks] at hlast
    · rw [windowsBreaks_cons hc] at hlast
      simp [windowsBreaks] at hlast
      simp [hlast] at ht

/-- Line breaks are found on each side of a cut that is not within one. -/
theorem breakEnds_append {a : Text} (ha : a.getLast? ≠ some '\r') (b : Text) (o : Nat) :
    breakEnds o (a ++ b) = breakEnds o a ++ breakEnds (o + a.length) b := by
  fun_induction breakEnds o a with
  | case1 o => rfl
  | case2 o t ih =>
    rw [List.cons_append, List.cons_append, breakEnds, ih (getLast?_tail_ne (getLast?_tail_ne ha)),
      List.cons_append, List.length_cons, List.length_cons, Nat.add_assoc o, Nat.add_comm 2]
  | case3 o t ht ih =>
    -- the text goes on behind the carriage return, and not with a line feed
    cases t with
    | nil => exact absurd rfl ha
    | cons c t =>
      have hc : c ≠ '\n' := fun hc => ht t (by rw [hc])
      rw [List.cons_append, breakEnds, ih (getLast?_tail_ne ha), List.cons_append,
        List.length_cons (a := '\r'), Nat.add_assoc o, Nat.add_comm 1]
      exact fun t' ht' => hc (List.cons.inj ht').1
  | case4 o t ih =>
    rw [List.cons_append, breakEnds, ih (getLast?_tail_ne ha), List.cons_append, List.length_cons,
      Nat.add_assoc o, Nat.add_comm 1]
  | case5 o c t h₁ h₂ h₃ ih =>
    rw [List.cons_append, breakEnds, ih (getLast?_tail_ne ha), List.length_cons, Nat.add_assoc o,
      Nat.add_comm 1]
    · exact fun t' hc _ => h₂ hc
    · exact h₂
    · exact h₃

/-- A line break ends within the text. -/
theorem breakEnds_bounds {o x : Nat} {t : Text} (h : x ∈ breakEnds o t) :
    o < x ∧ x ≤ o + t.length := by
  fun_induction breakEnds o t with
  | case1 => simp at h
  | case2 o t ih | case3 o t ht ih | case4 o t ih =>
    simp only [List.length_cons]
    rcases List.mem_cons.mp h with rfl | h
    · omega
    · have := ih h
      omega
  | case5 o c t h₁ h₂ h₃ ih =>
    have := ih h
    rw [List.length_cons]
    omega

end Text

/-- The position of an offset depends on the text before it only, unless a line break is cut. -/
theorem LineIndex.positionOf_append {a : Text} (ha : a.getLast? ≠ some '\r') (b : Text) :
    (ofText (a ++ b)).positionOf a.length = (ofText a).positionOf a.length := by
  have hbefore : ∀ x ∈ (ofText a).starts, decide (x ≤ a.length) = true := by
    intro x hx
    rcases List.mem_cons.mp hx with rfl | hx
    · simp
    · have := Text.breakEnds_bounds hx
      simp only [decide_eq_true_eq]
      omega
  have hbehind : (Text.breakEnds (0 + a.length) b).takeWhile (· ≤ a.length) = [] := by
    cases hb : Text.breakEnds (0 + a.length) b with
    | nil => rfl
    | cons x rest =>
      have := Text.breakEnds_bounds (x := x) (hb ▸ List.mem_cons_self ..)
      refine List.takeWhile_cons_of_neg ?_
      simp only [decide_eq_true_eq]
      omega
  have hstarts : (ofText (a ++ b)).starts =
      (ofText a).starts ++ Text.breakEnds (0 + a.length) b := by
    simp only [ofText, Text.breakEnds_append ha, List.cons_append]
  rw [positionOf, positionOf, hstarts, List.takeWhile_append_of_pos hbefore, hbehind,
    List.append_nil, List.takeWhile_eq_self_iff.mpr hbefore]

/-- Different offsets have different positions. -/
theorem LineIndex.positionOf_injective {ix : LineIndex} (h : ix.Ascending) :
    Function.Injective ix.positionOf := by
  intro o o' heq
  exact Nat.le_antisymm ((positionOf_le_iff h).mp (heq ▸ Position.le_refl _))
    ((positionOf_le_iff h).mp (heq ▸ Position.le_refl _))

/-- **Offsets keep their positions.** -/
theorem Text.positionOf_widened {t : Text} (ht : '\r' ∉ t) {i : Nat} (hi : i ≤ t.length) :
    (LineIndex.ofText t.windowsBreaks).positionOf (t.widened i) =
      (LineIndex.ofText t).positionOf i := by
  have hfront : '\r' ∉ t.take i := fun hmem => ht (List.mem_of_mem_take hmem)
  have hlast : (t.take i).getLast? ≠ some '\r' := fun h => hfront (List.mem_of_getLast? h)
  have hlength : (t.take i).length = i := List.length_take_of_le hi
  have hlines := lines_windowsBreaks hfront
  -- an offset has the position at which the text before it ends, and that is seen from its lines
  have hwide := LineIndex.positionOf_append (getLast?_windowsBreaks hfront)
    (windowsBreaks (t.drop i))
  have hplain := LineIndex.positionOf_append hlast (t.drop i)
  rw [← windowsBreaks_append, List.take_append_drop, length_windowsBreaks_take hi,
    ← length_windowsBreaks_take hi, Outline.positionOf_length] at hwide
  rw [List.take_append_drop, Outline.positionOf_length, hlength] at hplain
  rw [← length_windowsBreaks_take hi, hwide, hplain]
  simp only [Outline.fileSpan, Outline.ofText, hlines]

/-- A column of a line is found at the widened offset. -/
theorem Text.HasLine.widened_eq {t l : Text} (ht : '\r' ∉ t) {k a a' c : Nat}
    (h : t.HasLine k a l) (h' : t.windowsBreaks.HasLine k a' l) (hc : c ≤ l.length) :
    t.widened (a + c) = a' + c := by
  have hle : a + c ≤ t.length := by
    obtain ⟨pre, post, rfl, rfl⟩ := h.split
    simp only [List.length_append]
    omega
  refine LineIndex.positionOf_injective (LineIndex.ascending_ofText t.windowsBreaks) ?_
  rw [positionOf_widened ht hle, h.positionOf_eq hc, h'.positionOf_eq hc]

/-! ### Marks moved to other offsets -/

/-- The mark at another offset. -/
def Mark.shift (φ : Nat → Nat) (m : Mark) : Mark := ⟨φ m.offset, m.char⟩

@[simp] theorem Mark.char_shift (φ : Nat → Nat) (m : Mark) : (m.shift φ).char = m.char := rfl

@[simp] theorem Mark.offset_shift (φ : Nat → Nat) (m : Mark) :
    (m.shift φ).offset = φ m.offset := rfl

@[simp] theorem Mark.closes_shift (φ : Nat → Nat) (m o : Mark) :
    (m.shift φ).closes (o.shift φ) = m.closes o := rfl

/-- Which marks match does not depend on where they are. -/
theorem pairsFrom_shift (φ : Nat → Nat) (opened ms : List Mark) :
    pairsFrom (opened.map (Mark.shift φ)) (ms.map (Mark.shift φ)) =
      (pairsFrom opened ms).map (Prod.map φ φ) := by
  fun_induction pairsFrom opened ms with
  | case1 opened => rfl
  | case2 opened m ms hm ih =>
    rw [List.map_cons, pairsFrom.eq_def]
    simp only [Mark.char_shift, hm, if_true]
    exact ih
  | case3 m ms hm ih =>
    rw [List.map_cons, pairsFrom.eq_def]
    simp only [Mark.char_shift, hm, List.map_nil]
    exact ih
  | case4 m ms hm top below hcloses ih =>
    rw [List.map_cons, pairsFrom.eq_def]
    simp only [Mark.char_shift, hm, List.map_cons, Mark.closes_shift, hcloses, if_true, ih]
    rfl
  | case5 m ms hm top below hcloses ih =>
    rw [List.map_cons, pairsFrom.eq_def]
    simp only [Mark.char_shift, hm, List.map_cons, Mark.closes_shift, hcloses]
    exact ih

namespace Punctuation

/-- The same marks at other offsets. -/
def shift (φ : Nat → Nat) (p : Punctuation) : Punctuation :=
  ⟨p.marks.map (Mark.shift φ), p.pairs.map (Prod.map φ φ)⟩

/-- The block with its marks at other offsets. -/
def Block.shift (φ : Nat → Nat) (b : Block) : Block := ⟨φ b.opener, b.closer.map φ⟩

section Shift

variable {φ : Nat → Nat} (hφ : StrictMono φ) (p : Punctuation)

include hφ

/-- Brackets are matched as before. -/
theorem closer?_shift (o : Nat) : (p.shift φ).closer? (φ o) = (p.closer? o).map φ := by
  unfold closer? shift
  induction p.pairs with
  | nil => rfl
  | cons pair pairs ih =>
    obtain ⟨a, c⟩ := pair
    by_cases ho : o = a
    · subst ho
      simp
    · have hne : φ o ≠ φ a := fun h => ho (hφ.injective h)
      simp only [List.map_cons, Prod.map_apply, List.lookup_cons, beq_false_of_ne ho,
        beq_false_of_ne hne]
      exact ih

/-- Marks are dropped as before. -/
theorem dropWhile_le_shift (ms : List Mark) (n : Nat) :
    (ms.map (Mark.shift φ)).dropWhile (·.offset ≤ φ n) =
      (ms.dropWhile (·.offset ≤ n)).map (Mark.shift φ) := by
  rw [List.dropWhile_map]
  congr 2
  funext m
  simp only [Function.comp_apply, Mark.shift, hφ.le_iff_le]

theorem dropWhile_lt_shift (ms : List Mark) (n : Nat) :
    (ms.map (Mark.shift φ)).dropWhile (·.offset < φ n) =
      (ms.dropWhile (·.offset < n)).map (Mark.shift φ) := by
  rw [List.dropWhile_map]
  congr 2
  funext m
  simp only [Function.comp_apply, Mark.shift, hφ.lt_iff_lt]

/-- And so blocks are found. -/
theorem blockAmong_shift (ms : List Mark) :
    (p.shift φ).blockAmong (ms.map (Mark.shift φ)) = (p.blockAmong ms).map (Block.shift φ) := by
  fun_induction p.blockAmong ms with
  | case1 =>
    rw [List.map_nil, blockAmong]
    rfl
  | case2 m rest hchar hclose =>
    rw [List.map_cons, blockAmong]
    simp only [Mark.char_shift, hchar, if_true, Mark.offset_shift, closer?_shift hφ, hclose,
      Option.map_none]
  | case3 m rest hchar close hclose ih =>
    rw [List.map_cons, blockAmong, ← ih, ← dropWhile_le_shift hφ]
    simp only [Mark.char_shift, hchar, if_true, Mark.offset_shift, closer?_shift hφ, hclose,
      Option.map_some]
  | case4 m rest hparen hbrace =>
    rw [List.map_cons, blockAmong]
    simp only [Mark.char_shift, hparen, hbrace, if_true, Mark.offset_shift, closer?_shift hφ]
    rfl
  | case5 m rest hparen hbrace =>
    rw [List.map_cons, blockAmong]
    simp only [Mark.char_shift, hparen, hbrace]
    rfl

/-- **The block that follows an offset moves with the marks.** -/
theorem blockAfter_shift (n : Nat) :
    (p.shift φ).blockAfter (φ n) = (p.blockAfter n).map (Block.shift φ) := by
  rw [blockAfter, blockAfter, ← blockAmong_shift hφ, ← dropWhile_lt_shift hφ]
  rfl

end Shift

end Punctuation

/-! ### Reading over a line break -/

namespace Mode

/-- The quote of the string that is read. -/
def quote? : Mode → Option Char
  | .literal q | .escape q => some q
  | _ => none

/-- Whether a string that ends with its line has just been continued with a backslash. -/
def escapes : Mode → Bool
  | .escape q => q != backquote
  | _ => false

/-- Only quotes open literals. -/
theorem quote?_afterCode {c q : Char} (h : (afterCode c).quote? = some q) : isQuote q = true := by
  unfold afterCode at h
  split_ifs at h with hquote hslash
  · obtain rfl := Option.some.inj h
    exact hquote
  · cases h
  · cases h

/-- Strings are opened by quotes. -/
theorem isQuote_step {m : Mode} (hm : ∀ q, m.quote? = some q → isQuote q = true) (c : Char) :
    ∀ q, (m.step c).quote? = some q → isQuote q = true := by
  intro q hq
  cases m with
  | code => exact quote?_afterCode hq
  | slash =>
    simp only [step] at hq
    split_ifs at hq
    · cases hq
    · cases hq
    · exact quote?_afterCode hq
  | lineComment | blockComment | blockStar =>
    simp only [step] at hq
    split_ifs at hq <;> cases hq
  | literal q' =>
    refine hm q ?_
    simp only [step] at hq
    split_ifs at hq
    · exact hq
    · cases hq
    · cases hq
    · exact hq
  | escape q' => exact hm q hq

/-- **A carriage return before a line feed makes no difference**, unless it is what a backslash
escapes. -/
theorem step_lineBreak {m : Mode} (hm : ∀ q, m.quote? = some q → isQuote q = true)
    (hescapes : m.escapes = false) : (m.step '\r').step '\n' = m.step '\n' := by
  cases m with
  | code | slash | lineComment | blockComment | blockStar => rfl
  | literal q =>
    have hq : ('\r' == q) = false := by
      refine beq_false_of_ne fun heq => ?_
      have hquote := hm q rfl
      rw [← heq] at hquote
      exact absurd hquote (by decide)
    simp [step, hq]
  | escape q =>
    obtain rfl : q = backquote := by simpa [escapes] using hescapes
    rfl

end Mode

/-- Whether one of the line feeds of a text, read from mode `m` on, is escaped in a string of single
or double quotes. -/
def escapesBreak (m : Mode) : Text → Bool
  | [] => false
  | c :: t => (c == '\n' && m.escapes) || escapesBreak (m.step c) t

theorem isMark_lineBreak : isMark '\r' = false ∧ isMark '\n' = false := by decide

/-- **The marks of a text are moved by its line breaks and stay the same otherwise.** -/
theorem marksFrom_windowsBreaks {m : Mode} (hm : ∀ q, m.quote? = some q → isQuote q = true)
    {t : Text} (hescapes : escapesBreak m t = false) (pre : Text) :
    marksFrom m pre.windowsBreaks.length t.windowsBreaks =
      (marksFrom m pre.length t).map (Mark.shift (Text.widened (pre ++ t))) := by
  induction t generalizing m pre with
  | nil => rfl
  | cons c t ih =>
    rw [escapesBreak, Bool.or_eq_false_iff] at hescapes
    have hrest := ih (Mode.isQuote_step hm c) hescapes.2 (pre ++ [c])
    rw [Text.windowsBreaks_append, List.length_append, List.length_append,
      List.append_assoc] at hrest
    by_cases hc : c = '\n'
    · subst hc
      have hstep := Mode.step_lineBreak hm (by simpa using hescapes.1)
      simp only [Text.windowsBreaks_lineFeed, marksFrom, isMark_lineBreak.1, isMark_lineBreak.2,
        Bool.and_false, hstep]
      exact hrest
    · have hhere : Text.widened (pre ++ c :: t) pre.length = pre.windowsBreaks.length := by
        rw [← Text.length_windowsBreaks_take (by simp), List.take_left]
      rw [Text.windowsBreaks_cons hc, marksFrom, marksFrom]
      rw [Text.windowsBreaks_cons hc] at hrest
      split_ifs with hmark
      · rw [List.map_cons, Mark.shift, hhere]
        exact congrArg (_ :: ·) hrest
      · exact hrest

/-- **All marks and pairs move along with the text.** -/
theorem Punctuation.ofText_windowsBreaks {t : Text} (h : escapesBreak .code t = false) :
    ofText t.windowsBreaks = (ofText t).shift t.widened := by
  have hmarks := marksFrom_windowsBreaks (m := .code) (by simp [Mode.quote?]) h []
  rw [List.nil_append] at hmarks
  have hpairs := pairsFrom_shift t.widened [] (marksFrom .code 0 t)
  simp only [ofText, shift]
  rw [Punctuation.mk.injEq]
  exact ⟨hmarks, (congrArg (pairsFrom []) hmarks).trans hpairs⟩

/-! ### Branches -/

/-- Words stay the same. -/
theorem takeWhile_isWord_windowsBreaks (t : Text) :
    t.windowsBreaks.takeWhile isWord = t.takeWhile isWord := by
  induction t with
  | nil => rfl
  | cons c t ih =>
    by_cases hc : c = '\n'
    · subst hc
      rw [Text.windowsBreaks_lineFeed, List.takeWhile_cons_of_neg (by decide),
        List.takeWhile_cons_of_neg (by decide)]
    · rw [Text.windowsBreaks_cons hc, List.takeWhile_cons, List.takeWhile_cons, ih]

/-- A text starts as before unless it does so with a line break. -/
theorem eq_cons_of_windowsBreaks {t u : Text} {c : Char} (hc : c ≠ '\r')
    (h : t.windowsBreaks = c :: u) : ∃ u', t = c :: u' := by
  cases t with
  | nil => cases h
  | cons x t =>
    by_cases hx : x = '\n'
    · subst hx
      rw [Text.windowsBreaks_lineFeed] at h
      exact absurd (List.cons.inj h).1.symm hc
    · rw [Text.windowsBreaks_cons hx] at h
      exact ⟨t, by rw [(List.cons.inj h).1]⟩

/-- So question marks are told apart as before. -/
theorem isChoice_windowsBreaks (before : Option Char) (t : Text) :
    isChoice before t.windowsBreaks = isChoice before t := by
  cases t with
  | nil => rfl
  | cons c t =>
    by_cases hc : c = '\n'
    · subst hc
      rfl
    · rw [Text.windowsBreaks_cons hc]
      unfold isChoice
      split <;> simp_all

/-- Branch points are not changed by the breaks between them. -/
theorem branchesFrom_windowsBreaks (count : Nat) (before : Option Char) (t : Text) :
    branchesFrom count before t.windowsBreaks = branchesFrom count before t := by
  -- two characters of an operator are side by side in one text exactly if they are in the other
  have happart : ∀ {c x : Char} {t : Text}, x ≠ '\r' → (∀ u, c = x → t = x :: u → False) →
      ∀ u, c = x → t.windowsBreaks = x :: u → False := by
    intro c x t hx h u hc hu
    obtain ⟨u', hu'⟩ := eq_cons_of_windowsBreaks hx hu
    exact h u' hc hu'
  fun_induction branchesFrom count before t with
  | case1 => rfl
  | case2 count before t ih =>
    rw [Text.windowsBreaks_cons (by decide), Text.windowsBreaks_cons (by decide), branchesFrom, ih]
  | case3 count before t ih =>
    rw [Text.windowsBreaks_cons (by decide), Text.windowsBreaks_cons (by decide), branchesFrom, ih]
  | case4 count before c t hand hor hc ih =>
    have hne : c ≠ '\n' := fun h => absurd (h ▸ hc) (by decide)
    rw [Text.windowsBreaks_cons hne,
      branchesFrom.eq_4 _ _ _ _ (happart (by decide) hand) (happart (by decide) hor), if_pos hc,
      isChoice_windowsBreaks]
    exact ih
  | case5 count before c t hand hor hc hword ih =>
    have hne : c ≠ '\n' := fun h => by
      rw [h, show isWord '\n' = false by decide] at hword
      cases hword
    rw [Text.windowsBreaks_cons hne,
      branchesFrom.eq_4 _ _ _ _ (happart (by decide) hand) (happart (by decide) hor), if_neg hc,
      ← Text.windowsBreaks_cons hne, takeWhile_isWord_windowsBreaks, if_pos hword]
    exact ih
  | case6 count before c t hand hor hc hword ih =>
    by_cases hne : c = '\n'
    · subst hne
      rw [Text.windowsBreaks_lineFeed, branchesFrom.eq_4 _ _ _ _ (by simp) (by simp),
        branchesFrom.eq_4 _ _ _ _ (by simp) (by simp)]
      exact ih
    · rw [Text.windowsBreaks_cons hne,
        branchesFrom.eq_4 _ _ _ _ (happart (by decide) hand) (happart (by decide) hor), if_neg hc,
        ← Text.windowsBreaks_cons hne, takeWhile_isWord_windowsBreaks, if_neg hword]
      exact ih

/-! ### Outlines -/

namespace Outline

/-- Where a body ends moves with the marks. -/
theorem Source.bodyEnd_shift (t : Text) (b : Punctuation.Block) :
    (Source.ofText t.windowsBreaks).bodyEnd (b.shift t.widened) =
      t.widened ((Source.ofText t).bodyEnd b) := by
  cases hc : b.closer with
  | none =>
    simp only [bodyEnd, Punctuation.Block.shift, hc, Option.map_none, Option.getD_none, ofText,
      Text.widened_length]
  | some c => simp only [bodyEnd, Punctuation.Block.shift, hc, Option.map_some, Option.getD_some]

/-- A body ends inside the text, behind the offset it follows, and not with a line feed. -/
theorem Source.bodyEnd_bounds {t : Text} {n : Nat} {b : Punctuation.Block} (hn : n ≤ t.length)
    (hb : (Punctuation.ofText t).blockAfter n = some b) :
    n ≤ (Source.ofText t).bodyEnd b ∧ (Source.ofText t).bodyEnd b ≤ t.length ∧
      t[(Source.ofText t).bodyEnd b]? ≠ some '\n' := by
  have hleads := Punctuation.blockAfter_eq_some_iff.mp hb
  unfold bodyEnd
  cases hc : b.closer with
  | none =>
    rw [Option.getD_none]
    refine ⟨hn, Nat.le_refl _, ?_⟩
    rw [show (Source.ofText t).text = t from rfl, List.getElem?_eq_none (Nat.le_refl _)]
    simp
  | some c =>
    obtain ⟨x, hx, hmark⟩ := Punctuation.getElem?_closer (hleads.closer_eq.symm.trans hc)
    rw [Option.getD_some, hx]
    refine ⟨Nat.le_of_lt (hleads.lt_closer hc),
      Nat.le_of_lt (List.getElem?_eq_some_iff.mp hx).1, fun h => ?_⟩
    rw [Option.some.inj h, isMark_lineBreak.2] at hmark
    cases hmark

/-- **The declaration on a line is the same with wide breaks.** -/
theorem Source.declaration_windowsBreaks {t l : Text} (ht : '\r' ∉ t)
    (hescapes : escapesBreak .code t = false) {k : Nat} (hl : t.lines[k]? = some l) {n : Naming}
    (hn : n.StandsOn l) (kind : Kind) (container : Option Nat) (above : List Text) :
    (Source.ofText t.windowsBreaks).declaration kind container (k + 1) above n =
      (Source.ofText t).declaration kind container (k + 1) above n := by
  obtain ⟨a, ha⟩ := Text.exists_hasLine hl
  obtain ⟨a', ha'⟩ := Text.exists_hasLine ((Text.lines_windowsBreaks ht).symm ▸ hl)
  have hpast : n.before + n.name.length ≤ l.length := by
    obtain ⟨pre, post, rfl, hpre⟩ := hn
    simp only [List.length_append, String.length_toList]
    omega
  have hlength : a + l.length ≤ t.length := by
    obtain ⟨pre, post, rfl, rfl⟩ := ha.split
    simp only [List.length_append]
    omega
  have hname := ha.widened_eq ht ha' (c := n.before) (by omega)
  have hnameEnd := ha.widened_eq ht ha' hpast
  have hoffset : (Source.ofText t).index.offsetAt ⟨((k + 1 : Nat) : Int), (n.before : Int) + 1⟩ =
      a + n.before := ha.offsetAt_eq (by omega)
  have hoffset' : (Source.ofText t.windowsBreaks).index.offsetAt
      ⟨((k + 1 : Nat) : Int), (n.before : Int) + 1⟩ = t.widened (a + n.before) :=
    (ha'.offsetAt_eq (by omega)).trans hname.symm
  have hblock : (Source.ofText t.windowsBreaks).punctuation.blockAfter
      (t.widened (a + n.before) + n.name.length) =
      ((Source.ofText t).punctuation.blockAfter (a + n.before + n.name.length)).map
        (Punctuation.Block.shift t.widened) := by
    have hmarks : (Source.ofText t.windowsBreaks).punctuation =
        (Source.ofText t).punctuation.shift t.widened := Punctuation.ofText_windowsBreaks hescapes
    rw [hname, Nat.add_assoc, ← hnameEnd, ← Nat.add_assoc, hmarks]
    exact Punctuation.blockAfter_shift (Text.strictMono_widened t) _ _
  simp only [declaration, hoffset, hoffset', hblock]
  cases hb : (Source.ofText t).punctuation.blockAfter (a + n.before + n.name.length) with
  | none => rfl
  | some b =>
    obtain ⟨hbehind, hinside, hchar⟩ := Source.bodyEnd_bounds (by omega) hb
    have hposition : (Source.ofText t.windowsBreaks).index.positionOf
        (t.widened ((Source.ofText t).bodyEnd b)) =
        (Source.ofText t).index.positionOf ((Source.ofText t).bodyEnd b) :=
      Text.positionOf_widened ht hinside
    have hslice : (Source.ofText t.windowsBreaks).slice (t.widened (a + n.before))
        (t.widened ((Source.ofText t).bodyEnd b)) =
        Text.windowsBreaks ((Source.ofText t).slice (a + n.before)
          ((Source.ofText t).bodyEnd b)) := by
      rw [slice, slice, ← Text.widened_succ hchar]
      exact Text.slice_windowsBreaks (by omega)
    simp only [Option.map_some, Source.bodyEnd_shift, hposition, hslice, branches,
      branchesFrom_windowsBreaks]

/-- Two sources from which the same is read off each line have the same declarations. -/
theorem Source.declarations_congr (src src' : Source) (lines : List Text) :
    ∀ (line : Nat) (above : List Text) (current : Option Nat) (count : Nat),
      (∀ k l n kind container above', lines[k]? = some l → (LineKind.ofLine l).naming? = some n →
        src.declaration kind container (line + k) above' n =
          src'.declaration kind container (line + k) above' n) →
      src.declarations line above current count lines =
        src'.declarations line above current count lines := by
  induction lines with
  | nil => exact fun line above current count _ => rfl
  | cons l lines ih =>
    intro line above current count hsame
    obtain ⟨next, count', read, hread, hcons⟩ :=
      Source.declarations_cons line above current count l
    have hrest := ih (line + 1) (l :: above) next count' fun k l' n kind container above' hk hn =>
        by
      rw [Nat.add_assoc, Nat.add_comm 1]
      exact hsame (k + 1) l' n kind container above' (by simpa using hk) hn
    rw [hcons, hcons, hrest]
    cases read with
    | none => rfl
    | some r =>
      rw [Option.map_some, Option.map_some]
      exact congrArg (fun d => [d] ++ _) (hsame 0 l r.2.2 r.1 r.2.1 above rfl (hread r rfl))

/-- **Both kinds of line breaks give the same outline**, unless a line feed is escaped in a string
of single or double quotes, which then goes on in the one text and ends in the other.  The lines,
the span of the file and all of a declaration but what depends on its body are the same in any
case. -/
theorem unchanged_by_windowsBreaks {t : Text} (ht : '\r' ∉ t) :
    (escapesBreak .code t = false → ofText t.windowsBreaks = ofText t) ∧
      (ofText t.windowsBreaks).declarations.map Declaration.bare =
        (ofText t).declarations.map Declaration.bare ∧
      (ofText t.windowsBreaks).lineCount = (ofText t).lineCount ∧
      (ofText t.windowsBreaks).lastLineLength = (ofText t).lastLineLength ∧
      (ofText t.windowsBreaks).fileSpan = (ofText t).fileSpan := by
  have hlines := Text.lines_windowsBreaks ht
  refine ⟨fun hescapes => ?_, ?_, ?_, ?_, ?_⟩
  · have hsame := Source.declarations_congr (Source.ofText t.windowsBreaks) (Source.ofText t)
      t.lines 1 [] none 0 fun k l n kind container above hl hn => by
        rw [Nat.add_comm]
        exact Source.declaration_windowsBreaks ht hescapes hl (LineKind.standsOn_of_ofLine hn)
          kind container above
    simp only [ofText, hlines, hsame]
  · simp only [ofText, hlines]
    exact Source.map_bare_declarations _ _ t.lines 1 [] none 0
  · simp only [ofText, hlines]
  · simp only [ofText, hlines]
  · simp only [fileSpan, ofText, hlines]

/-- A function over several lines, with a line break escaped between backquotes. -/
def manyLines : Text :=
  ("/** Picks. */\nfunction f(a) \x7b\n  return a ? \x60\\\n\x60 : ')';\n\x7d\n").toList

/-- Its outline is the same with carriage returns. -/
theorem manyLines_windowsBreaks :
    '\r' ∉ manyLines ∧ escapesBreak .code manyLines = false ∧
      ofText manyLines.windowsBreaks = ofText manyLines ∧
      ofText manyLines =
        ⟨[⟨"f", .function, 2, 10, none, some ⟨2, 10, 5, 2⟩, some "Picks.", some ⟨4, some 2⟩⟩],
          6, 0⟩ := by
  have hreturn : '\r' ∉ manyLines := by decide +kernel
  have hescapes : escapesBreak .code manyLines = false := by decide +kernel
  exact ⟨hreturn, hescapes, (unchanged_by_windowsBreaks hreturn).1 hescapes, by decide +kernel⟩

/-- The outline does depend on the line breaks if one is escaped between single quotes: with a
carriage return the string ends with its line, and the brace behind it is read as part of another
one. -/
theorem escaped_break_differs :
    (ofText "function a() \x7b'\\\n' \x7d".toList).declarations =
        [⟨"a", .function, 1, 10, none, some ⟨1, 10, 2, 4⟩, none, some ⟨2, some 1⟩⟩] ∧
      (ofText (Text.windowsBreaks "function a() \x7b'\\\n' \x7d".toList)).declarations =
        [⟨"a", .function, 1, 10, none, some ⟨1, 10, 2, 5⟩, none, some ⟨2, some 1⟩⟩] := by
  decide +kernel

end Outline

end SymbolAtlas
