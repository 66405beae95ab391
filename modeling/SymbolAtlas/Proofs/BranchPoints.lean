import Mathlib.Algebra.BigOperators.Intervals
import Mathlib.Algebra.Order.BigOperators.Group.Finset
import SymbolAtlas.Proofs.LineEndings
import SymbolAtlas.Proofs.LineGrammar
import SymbolAtlas.Proofs.Scopes

/-!
# Branch points of a declaration

Branch points are counted place by place (`tally`): words that open a branch, halves of maximal runs
of `&` and of `|`, and question marks that choose.  One scan from left to right finds them all
(`branches_eq`).

What is counted at a place depends on little around it (`Confined`), and a declaration's text starts
behind a blank, an asterisk or a line break and ends with a brace or with the whole text.  So it has
the branch points that the whole text has in that stretch (`tally_window`), and a stretch inside
another one has no more of them than that one.
-/

namespace SymbolAtlas

variable {c : Char} {u : Text}

/-! ### Counting by places -/

/-- The sum of what `f` counts at the places of a text from offset `lo` on and before `hi`.  A place
is the character before it, if there is one, and the text from it on. -/
def tally (f : Option Char → Text → Nat) (t : Text) (lo hi : Nat) : Nat :=
  ∑ i ∈ Finset.Ico lo hi, f (t.take i).getLast? (t.drop i)

/-- The sum of what is counted at the places of a text that follows the character `before`. -/
def tallyFrom (f : Option Char → Text → Nat) (before : Option Char) : Text → Nat
  | [] => 0
  | c :: t => f before (c :: t) + tallyFrom f (some c) t

/-- A tally is the sum over all places. -/
theorem tallyFrom_eq (f : Option Char → Text → Nat) (u : Text) :
    ∀ pre : Text, tallyFrom f pre.getLast? u = tally f (pre ++ u) pre.length (pre ++ u).length := by
  induction u with
  | nil => intro pre; simp [tallyFrom, tally]
  | cons c u ih =>
    intro pre
    have hnext := ih (pre ++ [c])
    rw [List.getLast?_concat, List.append_assoc, List.singleton_append, List.length_append,
      List.length_singleton] at hnext
    have hlt : pre.length < (pre ++ c :: u).length := by simp
    rw [tallyFrom, hnext, tally, tally, Finset.sum_eq_sum_Ico_succ_bot hlt, List.take_left,
      List.drop_left]

/-! ### What is counted -/

/-- A word that opens a branch stands at the place, with no word character on either side. -/
def BranchWord (before : Option Char) (u : Text) : Prop :=
  before.any isWord = false ∧
    ∃ w ∈ branchWords, ∃ rest, u = w ++ rest ∧ rest.head?.any isWord = false

/-- A branch word starts where no word goes on. -/
theorem branchWord_iff {before : Option Char} :
    BranchWord before u ↔ before.any isWord = false ∧ u.takeWhile isWord ∈ branchWords := by
  have hwords : branchWords.all (·.all isWord) = true := by decide
  simp only [List.all_eq_true] at hwords
  refine and_congr_right fun _ => ⟨?_, fun hw => ?_⟩
  · rintro ⟨w, hw, rest, rfl, hrest⟩
    have htake : (w ++ rest).takeWhile isWord = w := by
      rw [List.takeWhile_append_of_pos (hwords w hw)]
      cases rest with
      | nil => simp
      | cons c rest => rw [List.takeWhile_cons_of_neg (by simpa using hrest), List.append_nil]
    rwa [htake]
  · refine ⟨_, hw, u.dropWhile isWord, List.takeWhile_append_dropWhile.symm, ?_⟩
    have hhead := List.head?_dropWhile_not isWord u
    cases hrest : (u.dropWhile isWord).head? with
    | none => rfl
    | some c => simpa [hrest] using hhead

instance (before : Option Char) (u : Text) : Decidable (BranchWord before u) :=
  decidable_of_iff _ branchWord_iff.symm

/-- A question mark stands at the place, with none before it and neither one nor a dot behind. -/
def Choice (before : Option Char) (u : Text) : Prop :=
  before ≠ some '?' ∧ u.head? = some '?' ∧ u[1]? ≠ some '.' ∧ u[1]? ≠ some '?'

instance (before : Option Char) (u : Text) : Decidable (Choice before u) :=
  inferInstanceAs (Decidable (_ ∧ _))

/-- How many characters `x` a text starts with. -/
def runLength (x : Char) (u : Text) : Nat := (u.takeWhile (· == x)).length

/-- One for a word that opens a branch. -/
def wordsAt (before : Option Char) (u : Text) : Nat := if BranchWord before u then 1 else 0

/-- One for a question mark that chooses. -/
def choicesAt (before : Option Char) (u : Text) : Nat := if Choice before u then 1 else 0

/-- Half the length of the maximal run of `x` that starts at the place, if one does. -/
def pairsAt (x : Char) (before : Option Char) (u : Text) : Nat :=
  if before ≠ some x then runLength x u / 2 else 0

/-- The branch points of a text from offset `lo` on and before `hi`. -/
def branchPoints (t : Text) (lo hi : Nat) : Nat :=
  tally wordsAt t lo hi + tally (pairsAt '&') t lo hi + tally (pairsAt '|') t lo hi +
    tally choicesAt t lo hi

/-- A stretch inside another one has no more branch points. -/
theorem branchPoints_mono (t : Text) {lo lo' hi hi' : Nat} (hlo : lo ≤ lo') (hhi : hi' ≤ hi) :
    branchPoints t lo' hi' ≤ branchPoints t lo hi := by
  have hsum : ∀ f, tally f t lo' hi' ≤ tally f t lo hi := fun f =>
    Finset.sum_le_sum_of_subset (Finset.Ico_subset_Ico hlo hhi)
  unfold branchPoints
  gcongr <;> apply hsum

/-! ### One scan finds them all -/

/-- The pairs of `x` that a scan finds, which may start in the middle of a run. -/
def pairsFound (x : Char) (before : Option Char) (u : Text) : Nat :=
  (if before = some x then runLength x u / 2 else 0) + tallyFrom (pairsAt x) before u

theorem runLength_cons (x c : Char) (u : Text) :
    runLength x (c :: u) = if c = x then runLength x u + 1 else 0 := by
  by_cases hc : c = x <;> simp [runLength, hc]

/-- Two equal signs make a pair. -/
theorem pairsFound_pair (x : Char) (before : Option Char) (u : Text) :
    pairsFound x before (x :: x :: u) = pairsFound x (some x) u + 1 := by
  have hrun : runLength x (x :: x :: u) / 2 = runLength x u / 2 + 1 := by
    rw [runLength_cons, runLength_cons, if_pos rfl, if_pos rfl]
    omega
  simp only [pairsFound, tallyFrom, pairsAt, hrun]
  by_cases hb : before = some x <;> simp [hb] <;> omega

/-- A single one makes none. -/
theorem pairsFound_single {x : Char} (h : c = x → u.head? ≠ some x) (before : Option Char) :
    pairsFound x before (c :: u) = pairsFound x (some c) u := by
  have hnext : c = x → runLength x u = 0 := by
    intro hc
    cases u with
    | nil => rfl
    | cons c' u => rw [runLength_cons, if_neg fun heq => h hc (by rw [heq]; rfl)]
  have hrun : runLength x (c :: u) / 2 = 0 := by
    rw [runLength_cons]
    split_ifs with hc
    · rw [hnext hc]
    · rfl
  simp only [pairsFound, tallyFrom, pairsAt, hrun]
  by_cases hc : c = x
  · simp [hnext hc]
  · simp [hc]

/-- A question mark is a choice unless it is part of another sign. -/
theorem isChoice_iff {before : Option Char} :
    isChoice before u = true ↔ Choice before ('?' :: u) := by
  cases u with
  | nil => simp [isChoice, Choice]
  | cons c u =>
    unfold isChoice Choice
    split <;> simp_all

/-- What the scan looks at is a word that opens a branch. -/
theorem wordsAt_cons (before : Option Char) (c : Char) (u : Text) :
    wordsAt before (c :: u) = if isWord c && !before.any isWord &&
      branchWords.contains ((c :: u).takeWhile isWord) then 1 else 0 := by
  have hiff : BranchWord before (c :: u) ↔ (isWord c && !before.any isWord &&
      branchWords.contains ((c :: u).takeWhile isWord)) = true := by
    rw [branchWord_iff]
    by_cases hc : isWord c = true
    · simp [hc]
    · have hnil : [] ∉ branchWords := by decide
      simp [hc, hnil]
  rw [wordsAt]
  simp only [hiff]

theorem choicesAt_cons_of_ne {c : Char} (hc : c ≠ '?') (before : Option Char) (u : Text) :
    choicesAt before (c :: u) = 0 := if_neg fun h => hc (by simpa using h.2.1)

/-- **One scan finds all branch points.**  It passes over pairs of `&` and `|`, so that it may be in
the middle of a run. -/
theorem branchesFrom_eq (count : Nat) (before : Option Char) (u : Text) :
    branchesFrom count before u = count + tallyFrom wordsAt before u + pairsFound '&' before u +
      pairsFound '|' before u + tallyFrom choicesAt before u := by
  have happart : ∀ {x c : Char} {u : Text}, (∀ v, c = x → u = x :: v → False) → c = x →
      u.head? ≠ some x := by
    intro x c u h hc hu
    obtain ⟨v, hv⟩ := List.head?_eq_some_iff.mp hu
    exact h v hc hv
  have hoperator : isWord '&' = false ∧ isWord '|' = false ∧ isWord '?' = false := by decide
  fun_induction branchesFrom count before u with
  | case1 count before => simp [tallyFrom, pairsFound, runLength]
  | case2 count before u ih | case3 count before u ih =>
    rw [ih, pairsFound_pair, pairsFound_single (by simp), pairsFound_single (by simp)]
    simp only [tallyFrom, wordsAt_cons, hoperator, Bool.false_and, if_neg Bool.false_ne_true]
    rw [choicesAt_cons_of_ne (by decide), choicesAt_cons_of_ne (by decide)]
    omega
  | case4 count before c u hand hor hc ih =>
    obtain rfl : c = '?' := by simpa using hc
    rw [ih, pairsFound_single (by simp), pairsFound_single (by simp)]
    simp only [tallyFrom, wordsAt_cons, hoperator, Bool.false_and, if_neg Bool.false_ne_true,
      choicesAt, ← isChoice_iff]
    split_ifs <;> omega
  | case5 count before c u hand hor hc hword ih | case6 count before c u hand hor hc hword ih =>
    have hmark : c ≠ '?' := by simpa using hc
    rw [ih, pairsFound_single (happart hand), pairsFound_single (happart hor)]
    simp only [tallyFrom, wordsAt_cons, hword, if_true, if_neg Bool.false_ne_true,
      choicesAt_cons_of_ne hmark]
    omega

/-- **The branches of a text are its branch points.** -/
theorem branches_eq (t : Text) : branches t = branchPoints t 0 t.length := by
  have hall : ∀ f, tallyFrom f none t = tally f t 0 t.length := fun f => tallyFrom_eq f t []
  rw [branches, branchesFrom_eq, branchPoints]
  simp only [pairsFound, reduceCtorEq, if_false, hall]
  omega

/-! ### Stretches of a text -/

/-- The character is part of nothing that is counted, and decides nothing around it. -/
def Quiet (c : Char) : Prop := isWord c = false ∧ c ≠ '&' ∧ c ≠ '|' ∧ c ≠ '?' ∧ c ≠ '.'

instance (c : Char) : Decidable (Quiet c) := inferInstanceAs (Decidable (_ ∧ _))

/-- What is counted at a place depends neither on a quiet character before it nor on anything behind
a quiet character further on. -/
structure Confined (f : Option Char → Text → Nat) : Prop where
  before : ∀ {q}, Quiet q → ∀ u, f (some q) u = f none u
  behind : ∀ {q}, Quiet q → ∀ b u v, f b (u ++ q :: v) = f b (u ++ [q])

/-- What is taken depends on nothing behind its end. -/
theorem takeWhile_behind {p : Char → Bool} {q : Char} (hq : p q = false) (u v : Text) :
    (u ++ q :: v).takeWhile p = (u ++ [q]).takeWhile p := by
  induction u with
  | nil => simp [hq]
  | cons c u ih => simp only [List.cons_append, List.takeWhile_cons, ih]

/-- Branch words do not reach over quiet characters. -/
theorem confined_wordsAt : Confined wordsAt where
  before hq u := by simp [wordsAt, branchWord_iff, hq.1]
  behind hq b u v := by simp only [wordsAt, branchWord_iff, takeWhile_behind hq.1]

/-- Nor do pairs. -/
theorem confined_pairsAt {x : Char} (hx : ¬ Quiet x) : Confined (pairsAt x) where
  before {q} hq u := by
    have hne : q ≠ x := fun h => hx (h ▸ hq)
    simp [pairsAt, hne]
  behind {q} hq b u v := by
    have hne : q ≠ x := fun h => hx (h ▸ hq)
    have hrun := takeWhile_behind (p := (· == x)) (q := q) (by simpa using hne) u v
    simp only [pairsAt, runLength, hrun]

/-- Nor do choices. -/
theorem confined_choicesAt : Confined choicesAt where
  before hq u := by simp [choicesAt, Choice, hq.2.2.2.1]
  behind {q} hq b u v := by
    obtain ⟨-, -, -, hmark, hdot⟩ := hq
    rcases u with - | ⟨c, - | ⟨c', u⟩⟩ <;> simp [choicesAt, Choice, hmark, hdot]

/-- **What is counted in a stretch of a text** is what is counted in it alone, if it is set off by
quiet characters: one before it, and one as its last unless it goes to the end. -/
theorem tally_window {f : Option Char → Text → Nat} (hf : Confined f) {pre w post : Text}
    (hpre : ∀ q ∈ pre.getLast?, Quiet q) (hpost : post = [] ∨ ∃ v q, w = v ++ [q] ∧ Quiet q) :
    tally f (pre ++ (w ++ post)) pre.length (pre.length + w.length) = tally f w 0 w.length := by
  rw [tally, tally, Finset.sum_Ico_eq_sum_range, Nat.Ico_zero_eq_range, Nat.add_sub_cancel_left]
  refine Finset.sum_congr rfl fun i hi => ?_
  have hi : i < w.length := Finset.mem_range.mp hi
  rw [List.take_length_add_append, List.drop_length_add_append, List.take_append_of_le_length hi.le,
    List.drop_append_of_le_length hi.le]
  have hbehind : ∀ b, f b (w.drop i ++ post) = f b (w.drop i) := by
    intro b
    rcases hpost with rfl | ⟨v, q, rfl, hq⟩
    · rw [List.append_nil]
    · rw [List.length_append, List.length_singleton] at hi
      rw [List.drop_append_of_le_length (by omega), List.append_assoc, List.singleton_append,
        hf.behind hq]
  rw [hbehind, List.getLast?_append]
  cases hlast : (w.take i).getLast? with
  | some c => rfl
  | none =>
    rw [Option.none_or]
    cases hc : pre.getLast? with
    | none => rfl
    | some q => exact hf.before (hpre q hc) _

/-- So the points of a window are those of the text within it. -/
theorem branchPoints_window {t : Text} {lo hi : Nat} (hlo : lo ≤ hi) (hhi : hi ≤ t.length)
    (hpre : ∀ q ∈ (t.take lo).getLast?, Quiet q)
    (hpost : hi = t.length ∨ lo < hi ∧ ∃ q, t[hi - 1]? = some q ∧ Quiet q) :
    branchPoints ((t.take hi).drop lo) 0 ((t.take hi).drop lo).length = branchPoints t lo hi := by
  obtain ⟨w, hw⟩ : ∃ w, (t.take hi).drop lo = w := ⟨_, rfl⟩
  have hsplit : t.take lo ++ (w ++ t.drop hi) = t := by
    have htake := List.take_append_drop lo (t.take hi)
    rw [List.take_take, Nat.min_eq_left hlo, hw] at htake
    rw [← List.append_assoc, htake, List.take_append_drop]
  have hlength : (t.take lo).length = lo ∧ (t.take lo).length + w.length = hi := by
    rw [← hw, List.length_drop, List.length_take, List.length_take]
    omega
  have hend : t.drop hi = [] ∨ ∃ v q, w = v ++ [q] ∧ Quiet q := by
    rcases hpost with rfl | ⟨hlt, q, hq, hquiet⟩
    · exact Or.inl List.drop_length
    · refine Or.inr ⟨(t.take (hi - 1)).drop lo, q, ?_, hquiet⟩
      have hlast : t.take hi = t.take (hi - 1) ++ [q] := by
        have htake := List.take_add_one (l := t) (i := hi - 1)
        rwa [Nat.sub_add_cancel (by omega), hq] at htake
      rw [← hw, hlast, List.drop_append_of_le_length]
      rw [List.length_take]
      omega
  have hwindow : ∀ {f}, Confined f → tally f w 0 w.length = tally f t lo hi := by
    intro f hf
    have hinner := tally_window hf hpre hend
    rw [hsplit, hlength.2, hlength.1] at hinner
    exact hinner.symm
  rw [hw, branchPoints, branchPoints, hwindow confined_wordsAt,
    hwindow (confined_pairsAt (by decide)), hwindow (confined_pairsAt (by decide)),
    hwindow confined_choicesAt]

/-! ### Names behind quiet characters -/

theorem isWord_of_isBlank (h : isBlank c = true) : isWord c = false := by
  have hfar : ([0x85, 0xA0, 0x1680, 0x2028, 0x2029, 0x202F, 0x205F, 0x3000] ++
      List.range' 0x2000 11).all (fun n => !inRuns wordRuns n) = true := by decide +kernel
  have hident := isIdent_of_isBlank h
  unfold isWord
  split_ifs with hascii
  · simp only [isIdent, Bool.or_eq_false_iff] at hident
    simp [hident]
  · have hblank : c.toNat ∈ [0x85, 0xA0, 0x1680, 0x2028, 0x2029, 0x202F, 0x205F, 0x3000] ++
        List.range' 0x2000 11 := by
      simp only [isBlank, Bool.or_eq_true, Bool.and_eq_true, decide_eq_true_eq, beq_iff_eq] at h
      simp only [List.mem_append, List.mem_cons, List.not_mem_nil, List.mem_range'_1, or_false]
      omega
    simpa using List.all_eq_true.mp hfar c.toNat hblank

/-- Blanks are quiet. -/
theorem quiet_of_isBlank (h : isBlank c = true) : Quiet c := by
  refine ⟨isWord_of_isBlank h, ?_, ?_, ?_, ?_⟩ <;> rintro rfl <;> exact absurd h (by decide)

/-- So are marks. -/
theorem quiet_of_isMark (h : isMark c = true) : Quiet c := by
  rcases isMark_cases h with rfl | rfl | rfl | rfl | rfl <;> decide

namespace LineGrammar

/-- The texts of the language end in quiet characters, if they are not empty. -/
def EndsQuietly (l : Language Char) : Prop := ∀ t ∈ l, ∀ c ∈ t.getLast?, Quiet c

/-- A text ends as its last part does. -/
theorem endsQuietly_mul {l m : Language Char} (hm : EndsQuietly m)
    (hl : EndsQuietly l ∨ [] ∉ m) : EndsQuietly (l * m) := by
  rintro - ⟨u, hu, v, hv, rfl⟩ c hc
  rw [Option.mem_def, List.getLast?_append] at hc
  cases hlast : v.getLast? with
  | some x =>
    rw [hlast] at hc
    exact hm v hv c (hlast.trans hc)
  | none =>
    obtain rfl := List.getLast?_eq_none_iff.mp hlast
    rw [List.getLast?_nil, Option.none_or] at hc
    exact (hl.resolve_right fun h => h hv) u hu c hc

theorem endsQuietly_blanks : EndsQuietly blanks := fun _ ht c hc =>
  quiet_of_isBlank (ht c (List.mem_of_getLast? hc))

theorem endsQuietly_gap : EndsQuietly gap := fun _ ht c hc =>
  quiet_of_isBlank (ht.2 c (List.mem_of_getLast? hc))

theorem endsQuietly_modifier (ws : List Text) : EndsQuietly (modifier ws) := by
  rintro t (rfl | ht) c hc
  · cases hc
  · exact endsQuietly_mul endsQuietly_gap (Or.inr fun h => h.1 rfl) t ht c hc

/-- What separates a name from `function` ends quietly. -/
theorem endsQuietly_separator : EndsQuietly separator := by
  rintro t (ht | ht)
  · exact endsQuietly_gap t ht
  · refine endsQuietly_mul endsQuietly_blanks (Or.inl ?_) t ht
    refine endsQuietly_mul ?_ (Or.inl endsQuietly_blanks)
    rintro - rfl c hc
    obtain rfl := Option.some.inj hc
    decide

theorem nil_notMem_separator : [] ∉ separator := by
  rw [mem_separator_iff]
  rintro (h | ⟨b, -, b', -, h⟩)
  · exact h.1 rfl
  · simp at h

theorem endsQuietly_classFront : EndsQuietly classFront :=
  endsQuietly_mul endsQuietly_gap (Or.inr fun h => h.1 rfl)

theorem endsQuietly_functionFront : EndsQuietly functionFront :=
  endsQuietly_mul endsQuietly_separator (Or.inr nil_notMem_separator)

/-- So does what stands in front of a method. -/
theorem endsQuietly_methodFront : EndsQuietly methodFront := by
  refine endsQuietly_mul (endsQuietly_modifier _) (Or.inl ?_)
  refine endsQuietly_mul (endsQuietly_modifier _) (Or.inl ?_)
  exact endsQuietly_mul (endsQuietly_modifier _) (Or.inl endsQuietly_blanks)

end LineGrammar

/-- A name on a line comes first or behind a quiet character. -/
theorem LineKind.quiet_before {line : Text} {n : Naming}
    (h : (LineKind.ofLine line).naming? = some n) :
    ∀ q ∈ (line.take n.before).getLast?, Quiet q := by
  have hfits : ∀ {front back : Language Char}, LineGrammar.EndsQuietly front →
      n.Fits front back line → ∀ q ∈ (line.take n.before).getLast?, Quiet q := by
    rintro front back hfront ⟨pre, hpre, post, -, rfl, hlen, -⟩
    rw [← hlen, List.take_left]
    exact hfront pre hpre
  rcases ofReader_of_ofLine h with h | h | h
  · exact hfits LineGrammar.endsQuietly_classFront
      (Reader.reads_classLine.ofReader_eq_some_iff.mp h)
  · exact hfits LineGrammar.endsQuietly_functionFront
      (Reader.reads_functionLine.ofReader_eq_some_iff.mp h)
  · exact hfits LineGrammar.endsQuietly_methodFront
      (Reader.reads_methodLine.ofReader_eq_some_iff.mp h)

/-- A line comes first or behind a line break. -/
theorem Rows.quiet_before {o : Nat} {t : Text} {rows : List (Nat × Text)} (h : Rows o t rows)
    {k a : Nat} {l : Text} (hk : rows[k]? = some (a, l)) :
    ∀ q ∈ (t.take (a - o)).getLast?, Quiet q := by
  induction h generalizing k with
  | last hl =>
    cases k with
    | zero =>
      obtain ⟨rfl, -⟩ : _ = a ∧ _ = l := by simpa using hk
      simp
    | succ k => simp at hk
  | @more o l' br t rows hl hbr hcr h ih =>
    cases k with
    | zero =>
      obtain ⟨rfl, -⟩ : o = a ∧ l' = l := by simpa using hk
      simp
    | succ k =>
      have hk' : rows[k]? = some (a, l) := by simpa using hk
      have hle := h.le_of_mem (List.mem_of_getElem? hk')
      have hsplit : a - o = (l' ++ br).length + (a - (o + l'.length + br.length)) := by
        rw [List.length_append]
        omega
      intro q hq
      rw [hsplit, List.take_length_add_append, Option.mem_def, List.getLast?_append] at hq
      cases hlast : (t.take (a - (o + l'.length + br.length))).getLast? with
      | some c =>
        rw [hlast] at hq
        exact ih hk' q (hlast.trans hq)
      | none =>
        rw [hlast, Option.none_or] at hq
        cases hbr <;>
        · obtain rfl : _ = q := by simpa using hq
          decide

/-- The text of a declaration with a body: from its name through the closing brace, or to the end if
there is none. -/
def Declaration.extent? (t : Text) (d : Declaration) : Option Text :=
  (d.block? t).map fun block =>
    (t.take ((block.closer.map (· + 1)).getD t.length)).drop (d.nameOffset t)

namespace Outline

variable {t : Text} {d : Declaration}

/-- A name comes first or behind a quiet character. -/
theorem quiet_before_name (hd : d ∈ (ofText t).declarations) :
    ∀ q ∈ (t.take (d.nameOffset t)).getLast?, Quiet q := by
  obtain ⟨k, a, l, n, ha, hn, -, -, hoffset, hlength⟩ := exists_line_of_mem hd
  intro q hq
  obtain ⟨pre, post, ht, hpre⟩ := ha.split
  rw [hoffset, ht, ← hpre, List.append_assoc, List.take_length_add_append,
    List.take_append_of_le_length (by omega), Option.mem_def, List.getLast?_append] at hq
  cases hlast : (l.take n.before).getLast? with
  | some c =>
    rw [hlast] at hq
    exact LineKind.quiet_before hn q (hlast.trans hq)
  | none =>
    obtain ⟨rows, hrows, hstarts, -⟩ := t.exists_rows
    have hstart := ha.start
    rw [← hstarts, List.getElem?_map] at hstart
    obtain ⟨row, hk, rfl⟩ := Option.map_eq_some_iff.mp hstart
    refine hrows.quiet_before hk q ?_
    rw [hlast, Option.none_or] at hq
    rwa [Nat.sub_zero, ht, ← hpre, List.append_assoc, List.take_left]

/-- What an outline says about the size of a declaration. -/
theorem metrics_eq (hd : d ∈ (ofText t).declarations) :
    d.metrics = (d.bodyEnd? t).map fun last =>
      ⟨((LineIndex.ofText t).positionOf last).line - d.line + 1, if d.kind = .klass then none
        else some (1 + branches ((Source.ofText t).slice (d.nameOffset t) last))⟩ := by
  obtain ⟨k, l, n, kind, container, above, -, -, rfl⟩ :=
    ((Source.ofText t).declarations_lines t.lines 1 [] none 0).1 d hd
  rfl

/-- The text of a declaration with a body has the branch points that the whole text has in that
stretch. -/
theorem exists_extent (hd : d ∈ (ofText t).declarations) {last : Nat}
    (hlast : d.bodyEnd? t = some last) :
    ∃ w, d.extent? t = some w ∧ (Source.ofText t).slice (d.nameOffset t) last = w ∧
      d.nameOffset t + w.length = min (last + 1) t.length ∧
      branchPoints w 0 w.length = branchPoints t (d.nameOffset t) (min (last + 1) t.length) := by
  have hname := (stands_of_mem hd).nameOffset_le_bodyEnd hlast
  obtain ⟨b, hb, rfl⟩ := Option.map_eq_some_iff.mp hlast
  have hleads := Punctuation.blockAfter_eq_some_iff.mp hb
  rw [Declaration.extent?, hb, Option.map_some]
  refine ⟨_, rfl, ?_⟩
  cases hc : b.closer with
  | none =>
    rw [hc] at hname
    have hstop : min (t.length + 1) t.length = t.length := by omega
    simp only [Option.map_none, Option.getD_none, hstop] at hname ⊢
    refine ⟨?_, ?_, branchPoints_window hname.1 le_rfl (quiet_before_name hd) (Or.inl rfl)⟩
    · rw [List.take_length]
      refine List.take_of_length_le ?_
      simp only [Source.ofText, List.length_drop]
      omega
    · rw [List.take_length, List.length_drop, Nat.add_sub_cancel' hname.1]
  | some c =>
    rw [hc] at hname
    obtain ⟨x, hx, hmark⟩ := Punctuation.getElem?_closer (hleads.closer_eq.symm.trans hc)
    have hlt := (List.getElem?_eq_some_iff.mp hx).1
    have hstop : min (c + 1) t.length = c + 1 := by omega
    simp only [Option.map_some, Option.getD_some, hstop] at hname ⊢
    refine ⟨List.drop_take.symm, ?_, branchPoints_window (by omega) hlt (quiet_before_name hd)
      (Or.inr ⟨by omega, x, hx, quiet_of_isMark hmark⟩)⟩
    rw [List.length_drop, List.length_take]
    omega

/-- The size of a function or method is that of its extent. -/
theorem metrics_of_body (hd : d ∈ (ofText t).declarations) (hkind : d.kind.isCallable = true)
    {body : Span} (hbody : d.body = some body) :
    ∃ last w, body.start = (LineIndex.ofText t).positionOf (d.nameOffset t) ∧
      body.stop = ⟨((LineIndex.ofText t).positionOf last).line,
        ((LineIndex.ofText t).positionOf last).column + 1⟩ ∧
      d.extent? t = some w ∧ d.metrics = some ⟨body.stop.line - body.start.line + 1,
        some (1 + branchPoints w 0 w.length)⟩ ∧
      d.nameOffset t + w.length = min (last + 1) t.length ∧
      branchPoints w 0 w.length = branchPoints t (d.nameOffset t) (min (last + 1) t.length) := by
  have hstands := stands_of_mem hd
  rw [hstands.body] at hbody
  obtain ⟨last, hlast, rfl⟩ := Option.map_eq_some_iff.mp hbody
  obtain ⟨w, hw, hslice, hextent⟩ := exists_extent hd hlast
  have hklass : d.kind ≠ .klass := fun h => by simp [h, Kind.isCallable] at hkind
  refine ⟨last, w, hstands.start.symm, rfl, hw, ?_, hextent⟩
  rw [metrics_eq hd, hlast, Option.map_some, if_neg hklass, hslice, branches_eq]
  rfl

/-- **Complexity counts branch points.**  A function or method with a body has one more than there
are in its text, from its name on, and as many lines as its body.  None is lost at either end: they
are as many as in that stretch of the whole text.  So if its body contains that of another one, it
is at least as complex and as long. -/
theorem complexity_counts_branchPoints (t : Text) :
    (∀ d ∈ (ofText t).declarations, d.kind.isCallable = true → ∀ body, d.body = some body →
      ∃ w, d.extent? t = some w ∧ d.metrics = some ⟨body.stop.line - body.start.line + 1,
          some (1 + branchPoints w 0 w.length)⟩ ∧
        branchPoints w 0 w.length =
          branchPoints t (d.nameOffset t) (d.nameOffset t + w.length)) ∧
    ∀ d ∈ (ofText t).declarations, ∀ e ∈ (ofText t).declarations,
      d.kind.isCallable = true → e.kind.isCallable = true →
      ∀ body body', d.body = some body → e.body = some body' → body.containsSpan body' = true →
        ∃ lines lines' complexity complexity', d.metrics = some ⟨lines, some complexity⟩ ∧
          e.metrics = some ⟨lines', some complexity'⟩ ∧ lines' ≤ lines ∧
          complexity' ≤ complexity := by
  have hasc := LineIndex.ascending_ofText t
  refine ⟨fun d hd hkind body hbody => ?_, ?_⟩
  · obtain ⟨last, w, -, -, hw, hmetrics, hlength, hpoints⟩ := metrics_of_body hd hkind hbody
    exact ⟨w, hw, hmetrics, by rw [hlength, hpoints]⟩
  · intro d hd e he hkind hkind' body body' hbody hbody' hin
    obtain ⟨last, w, hstart, hstop, -, hmetrics, -, hpoints⟩ := metrics_of_body hd hkind hbody
    obtain ⟨last', w', hstart', hstop', -, hmetrics', -, hpoints'⟩ :=
      metrics_of_body he hkind' hbody'
    simp only [Span.containsSpan, Bool.and_eq_true, Span.contains_iff] at hin
    obtain ⟨⟨hfirst, -⟩, -, hend⟩ := hin
    have hlines :
        body'.stop.line - body'.start.line + 1 ≤ body.stop.line - body.start.line + 1 := by
      rw [Position.le_iff] at hfirst hend
      omega
    have hname : d.nameOffset t ≤ e.nameOffset t := by
      rwa [hstart, hstart', LineIndex.positionOf_le_iff hasc] at hfirst
    have hlast : last' ≤ last := by
      rw [← LineIndex.positionOf_le_iff hasc, Position.le_iff]
      rw [hstop, hstop', Position.le_iff] at hend
      dsimp only at hend
      omega
    refine ⟨_, _, _, _, hmetrics, hmetrics', hlines, ?_⟩
    rw [hpoints, hpoints']
    exact Nat.add_le_add_left (branchPoints_mono t hname (by omega)) 1

end Outline

end SymbolAtlas
