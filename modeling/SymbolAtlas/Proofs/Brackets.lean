import Mathlib.Data.List.Pairwise
import Mathlib.Data.List.TakeWhile
import SymbolAtlas.Outline.Punctuation
import SymbolAtlas.Proofs.Entries

/-!
# Marks and what closes them

The marks of a text come in the order of their offsets (`sorted_marksFrom`).  Matching them with a
stack, whatever closers do not fit, gives pairs that do not cross: an opener between two marks that
match is itself matched between them (`Punctuation.closer?_nested`).

The block that follows an offset is found by going from group to group (`Punctuation.Leads`).  What
is found from inside a pair stays inside (`Leads.inside`), so a block that is found from further on,
but not from behind the end of another one, ends no later than that one (`Leads.closer_le`).
-/

namespace SymbolAtlas

variable {ms opened : List Mark} {c o : Nat}

/-! ### Marks in order -/

/-- The marks come one after the other. -/
def MarksSorted (ms : List Mark) : Prop := ms.Pairwise (·.offset < ·.offset)

/-- A mark is a character of the text, at its offset. -/
theorem exists_split_of_mem_marksFrom {m : Mode} {offset : Nat} {t : Text} {k : Mark}
    (h : k ∈ marksFrom m offset t) :
    isMark k.char = true ∧
      ∃ pre post, t = pre ++ k.char :: post ∧ k.offset = offset + pre.length := by
  -- what is found further on stands behind one character more
  have hlater : ∀ {o : Nat} {c : Char} {t : Text},
      (isMark k.char = true ∧
        ∃ pre post, t = pre ++ k.char :: post ∧ k.offset = o + 1 + pre.length) →
      isMark k.char = true ∧
        ∃ pre post, c :: t = pre ++ k.char :: post ∧ k.offset = o + pre.length := by
    rintro o c t ⟨hmark, pre, post, rfl, hk⟩
    exact ⟨hmark, c :: pre, post, rfl, by rw [List.length_cons]; omega⟩
  fun_induction marksFrom m offset t with
  | case1 => simp at h
  | case2 m offset c t hc ih =>
    rcases List.mem_cons.mp h with rfl | h
    · exact ⟨(Bool.and_eq_true_iff.mp hc).2, [], t, rfl, rfl⟩
    · exact hlater (ih h)
  | case3 m offset c t hc ih => exact hlater (ih h)

theorem sorted_marksFrom (m : Mode) (offset : Nat) (t : Text) :
    MarksSorted (marksFrom m offset t) := by
  fun_induction marksFrom m offset t with
  | case1 => exact List.Pairwise.nil
  | case2 m offset c t hc ih =>
    refine List.pairwise_cons.mpr ⟨fun k hk => ?_, ih⟩
    obtain ⟨-, pre, post, -, hoffset⟩ := exists_split_of_mem_marksFrom hk
    show offset < k.offset
    omega
  | case3 m offset c t hc ih => exact ih

theorem MarksSorted.eq_of_offset_eq (h : MarksSorted ms) {a b : Mark} (ha : a ∈ ms) (hb : b ∈ ms)
    (hab : a.offset = b.offset) : a = b := by
  have hnodup : (ms.map Mark.offset).Nodup :=
    List.pairwise_map.mpr (h.imp fun hlt => Nat.ne_of_lt hlt)
  exact List.inj_on_of_nodup_map hnodup ha hb hab

/-! ### Matching with a stack -/

/-- Braces and parentheses that open something. -/
def Mark.Opens (m : Mark) : Prop := m.char = '{' ∨ m.char = '('

theorem Mark.opens_iff {m : Mark} : (m.char == '{' || m.char == '(') = true ↔ m.Opens := by
  simp [Opens]

theorem Mark.not_opens_of_closes {a b : Mark} (h : b.closes a = true) : ¬ b.Opens := by
  simp only [closes, Bool.or_eq_true, Bool.and_eq_true, beq_iff_eq] at h
  rintro (hb | hb)
  · rcases h with ⟨h, -⟩ | ⟨h, -⟩ <;> exact absurd (hb.symm.trans h) (by decide)
  · rcases h with ⟨h, -⟩ | ⟨h, -⟩ <;> exact absurd (hb.symm.trans h) (by decide)

/-- The marks still open and those to come, read from the outermost on, come one after the
other. -/
def Stacked (opened ms : List Mark) : Prop := MarksSorted (opened.reverse ++ ms)

namespace Stacked

variable {opened ms : List Mark} {m o : Mark}

theorem push (h : Stacked opened (m :: ms)) : Stacked (m :: opened) ms := by
  simpa [Stacked] using h

theorem skip (h : Stacked opened (m :: ms)) : Stacked opened ms :=
  h.sublist ((List.Sublist.refl _).append (List.sublist_cons_self m ms))

theorem pop (h : Stacked (o :: opened) ms) : Stacked opened ms := by
  refine h.sublist (List.Sublist.append ?_ (List.Sublist.refl ms))
  rw [List.reverse_cons]
  exact List.sublist_append_left ..

/-- What is still open comes before what is to come. -/
theorem opened_lt (h : Stacked opened ms) {a b : Mark} (ha : a ∈ opened) (hb : b ∈ ms) :
    a.offset < b.offset :=
  (List.pairwise_append.mp h).2.2 a (List.mem_reverse.mpr ha) b hb

/-- The innermost mark that is open comes last. -/
theorem below_top (h : Stacked (o :: opened) ms) {a : Mark} (ha : a ∈ opened) :
    a.offset < o.offset := by
  have hopened := (List.pairwise_append.mp h).1
  rw [List.reverse_cons] at hopened
  exact (List.pairwise_append.mp hopened).2.2 a (List.mem_reverse.mpr ha) o (by simp)

theorem head_lt (h : Stacked opened (m :: ms)) {b : Mark} (hb : b ∈ ms) : m.offset < b.offset :=
  (List.pairwise_cons.mp (List.pairwise_append.mp h).2.1).1 b hb

end Stacked

/-- A pair consists of a mark and one to come that closes it. -/
theorem exists_marks_of_mem_pairsFrom (h : (o, c) ∈ pairsFrom opened ms) :
    ∃ a ∈ opened ++ ms, ∃ b ∈ ms, a.offset = o ∧ b.offset = c ∧ b.closes a = true := by
  fun_induction pairsFrom opened ms with
  | case1 => simp at h
  | case2 opened m ms hm ih =>
    obtain ⟨a, ha, b, hb, hpair⟩ := ih h
    refine ⟨a, ?_, b, List.mem_cons_of_mem m hb, hpair⟩
    simp only [List.cons_append, List.mem_cons, List.mem_append] at ha ⊢
    tauto
  | case3 m ms hm ih =>
    obtain ⟨a, ha, b, hb, hpair⟩ := ih h
    exact ⟨a, List.mem_cons_of_mem m ha, b, List.mem_cons_of_mem m hb, hpair⟩
  | case4 m ms hm top below hcloses ih =>
    rcases List.mem_cons.mp h with heq | h
    · obtain ⟨rfl, rfl⟩ := Prod.mk.inj heq
      exact ⟨top, by simp, m, by simp, rfl, rfl, hcloses⟩
    · obtain ⟨a, ha, b, hb, hpair⟩ := ih h
      refine ⟨a, ?_, b, List.mem_cons_of_mem m hb, hpair⟩
      simp only [List.cons_append, List.mem_cons, List.mem_append] at ha ⊢
      tauto
  | case5 m ms hm top below hcloses ih =>
    obtain ⟨a, ha, b, hb, hpair⟩ := ih h
    refine ⟨a, ?_, b, List.mem_cons_of_mem m hb, hpair⟩
    simp only [List.cons_append, List.mem_cons, List.mem_append] at ha ⊢
    tauto

/-- No mark is closed twice. -/
theorem nodup_keys_pairsFrom (h : Stacked opened ms) :
    ((pairsFrom opened ms).map Prod.fst).Nodup := by
  fun_induction pairsFrom opened ms with
  | case1 => exact List.nodup_nil
  | case2 opened m ms hm ih => exact ih h.push
  | case3 m ms hm ih => exact ih h.skip
  | case4 m ms hm top below hcloses ih =>
    refine List.nodup_cons.mpr ⟨fun hin => ?_, ih h.skip.pop⟩
    obtain ⟨⟨o, c⟩, hpair, rfl⟩ := List.mem_map.mp hin
    obtain ⟨a, ha, -, -, hoffset, -⟩ := exists_marks_of_mem_pairsFrom hpair
    -- the mark is not below itself on the stack, and none that is still to come
    rcases List.mem_append.mp ha with ha | ha
    · exact Nat.ne_of_lt (h.below_top ha) hoffset
    · exact Nat.ne_of_gt (h.skip.opened_lt (List.mem_cons_self ..) ha) hoffset
  | case5 m ms hm top below hcloses ih => exact ih h.skip

/-- What closes a mark comes after it. -/
theorem lt_of_mem_pairsFrom (h : Stacked opened ms) (hpair : (o, c) ∈ pairsFrom opened ms) :
    o < c := by
  fun_induction pairsFrom opened ms with
  | case1 => simp at hpair
  | case2 opened m ms hm ih => exact ih h.push hpair
  | case3 m ms hm ih => exact ih h.skip hpair
  | case4 m ms hm top below hcloses ih =>
    rcases List.mem_cons.mp hpair with heq | hlater
    · obtain ⟨rfl, rfl⟩ := Prod.mk.inj heq
      exact h.opened_lt (List.mem_cons_self ..) (List.mem_cons_self ..)
    · exact ih h.skip.pop hlater
  | case5 m ms hm top below hcloses ih => exact ih h.skip hpair

/-- **Pairs do not cross.**  An opener between two marks that match is matched between them: it is
above the one on the stack, and goes before it does. -/
theorem pairsFrom_nested (h : Stacked opened ms) (hpair : (o, c) ∈ pairsFrom opened ms) {k : Mark}
    (hk : k ∈ opened ++ ms) (hopens : k.Opens) (hok : o < k.offset) (hkc : k.offset < c) :
    ∃ c', (k.offset, c') ∈ pairsFrom opened ms ∧ c' < c := by
  fun_induction pairsFrom opened ms with
  | case1 => simp at hpair
  | case2 opened m ms hm ih =>
    refine ih h.push hpair ?_
    simp only [List.cons_append, List.mem_cons, List.mem_append] at hk ⊢
    tauto
  | case3 m ms hm ih =>
    have hne : k ≠ m := fun heq => hm (Mark.opens_iff.mpr (heq ▸ hopens))
    exact ih h.skip hpair ((List.mem_cons.mp hk).resolve_left hne)
  | case4 m ms hm top below hcloses ih =>
    have hne : k ≠ m := fun heq => hm (Mark.opens_iff.mpr (heq ▸ hopens))
    have hwhere : k = top ∨ k ∈ below ∨ k ∈ ms := by
      simp only [List.cons_append, List.mem_cons, List.mem_append] at hk
      tauto
    rcases List.mem_cons.mp hpair with heq | hlater
    · -- between the top of the stack and what closes it there is nothing left
      obtain ⟨rfl, rfl⟩ := Prod.mk.inj heq
      rcases hwhere with rfl | hk | hk
      · exact absurd hok (Nat.lt_irrefl _)
      · exact absurd (h.below_top hk) (Nat.lt_asymm hok)
      · exact absurd (h.head_lt hk) (Nat.lt_asymm hkc)
    · rcases hwhere with rfl | hk
      · obtain ⟨-, -, b, hb, -, rfl, -⟩ := exists_marks_of_mem_pairsFrom hlater
        exact ⟨m.offset, List.mem_cons_self .., h.head_lt hb⟩
      · obtain ⟨c', hc', hlt⟩ := ih h.skip.pop hlater (List.mem_append.mpr hk)
        exact ⟨c', List.mem_cons_of_mem _ hc', hlt⟩
  | case5 m ms hm top below hcloses ih =>
    have hne : k ≠ m := fun heq => hm (Mark.opens_iff.mpr (heq ▸ hopens))
    refine ih h.skip hpair ?_
    simp only [List.cons_append, List.mem_cons, List.mem_append] at hk ⊢
    tauto

namespace Punctuation

variable {c n o : Nat} {t : Text} {m : Mark}

theorem sorted_ofText (t : Text) : MarksSorted (ofText t).marks := sorted_marksFrom ..

theorem stacked_ofText (t : Text) : Stacked [] (ofText t).marks := sorted_ofText t

theorem closer?_eq_some_iff : (ofText t).closer? o = some c ↔ (o, c) ∈ (ofText t).pairs := by
  have hnodup : (Entries.mk (ofText t).pairs).keys.Nodup :=
    nodup_keys_pairsFrom (stacked_ofText t)
  refine ⟨fun h => ?_, fun h => Entries.get?_of_mem hnodup h⟩
  obtain ⟨before, after, hsplit, -⟩ := List.lookup_eq_some_iff.mp h
  rw [hsplit]
  simp

/-- A mark that is closed is closed by one of its kind further on. -/
theorem exists_closer (h : (ofText t).closer? o = some c) :
    o < c ∧ ∃ b ∈ (ofText t).marks, b.offset = c ∧ ∃ a, b.closes a = true := by
  have hpair := closer?_eq_some_iff.mp h
  obtain ⟨a, -, b, hb, -, hc, hcloses⟩ := exists_marks_of_mem_pairsFrom hpair
  exact ⟨lt_of_mem_pairsFrom (stacked_ofText t) hpair, b, hb, hc, a, hcloses⟩

/-- **An opener between two marks that match is matched between them.** -/
theorem closer?_nested (h : (ofText t).closer? o = some c) {k : Mark} (hk : k ∈ (ofText t).marks)
    (hopens : k.Opens) (hok : o < k.offset) (hkc : k.offset < c) :
    ∃ c', (ofText t).closer? k.offset = some c' ∧ c' < c := by
  obtain ⟨c', hc', hlt⟩ :=
    pairsFrom_nested (stacked_ofText t) (closer?_eq_some_iff.mp h) hk hopens hok hkc
  exact ⟨c', closer?_eq_some_iff.mpr hc', hlt⟩

/-! ### The block that follows -/

/-- The first mark from an offset on. -/
structure IsNext (p : Punctuation) (n : Nat) (m : Mark) : Prop where
  mem : m ∈ p.marks
  le : n ≤ m.offset
  least : ∀ k ∈ p.marks, n ≤ k.offset → m.offset ≤ k.offset

/-- From an offset one is led to a block: it comes next, or it is led to from behind the
parenthesised group that comes next. -/
inductive Leads (p : Punctuation) : Nat → Block → Prop
  | block {n : Nat} {m : Mark} (hm : p.IsNext n m) (hchar : m.char = '{') :
      Leads p n ⟨m.offset, p.closer? m.offset⟩
  | group {n close : Nat} {m : Mark} {b : Block} (hm : p.IsNext n m) (hchar : m.char = '(')
      (hclose : p.closer? m.offset = some close) (h : Leads p (close + 1) b) : Leads p n b

/-- The first mark from an offset on is still the first from any offset up to it. -/
theorem IsNext.of_le {p : Punctuation} {n' : Nat} (h : p.IsNext n m) (hn : n ≤ n')
    (hm : n' ≤ m.offset) : p.IsNext n' m :=
  ⟨h.mem, hm, fun k hk hle => h.least k hk (Nat.le_trans hn hle)⟩

theorem dropWhile_eq_cons_iff {p : Punctuation} (hp : MarksSorted p.marks) :
    (∃ rest, p.marks.dropWhile (·.offset < n) = m :: rest) ↔ p.IsNext n m := by
  have hsplit := List.takeWhile_append_dropWhile (p := fun k : Mark => decide (k.offset < n))
    (l := p.marks)
  have hfront : ∀ k ∈ p.marks.takeWhile (·.offset < n), k.offset < n := fun k hk => by
    simpa using List.mem_takeWhile_imp hk
  have hnext : ∀ {m' : Mark} {rest : List Mark},
      p.marks.dropWhile (·.offset < n) = m' :: rest → p.IsNext n m' := by
    intro m' rest hrest
    rw [hrest] at hsplit
    have hnot : ¬ m'.offset < n := by
      have hhead := List.head?_dropWhile_not (fun k : Mark => decide (k.offset < n)) p.marks
      simpa [hrest] using hhead
    refine ⟨hsplit ▸ List.mem_append_right _ (List.mem_cons_self ..), Nat.not_lt.mp hnot, ?_⟩
    intro k hk hle
    rw [← hsplit, List.mem_append, List.mem_cons] at hk
    rcases hk with hk | rfl | hk
    · exact absurd (hfront k hk) (Nat.not_lt.mpr hle)
    · exact Nat.le_refl _
    · rw [← hsplit] at hp
      exact Nat.le_of_lt ((List.pairwise_cons.mp (List.pairwise_append.mp hp).2.1).1 k hk)
  refine ⟨fun ⟨rest, hrest⟩ => hnext hrest, fun hm => ?_⟩
  cases hdrop : p.marks.dropWhile (·.offset < n) with
  | nil =>
    have hmem := hm.mem
    rw [← hsplit, hdrop, List.append_nil] at hmem
    exact absurd (hfront m hmem) (Nat.not_lt.mpr hm.le)
  | cons m' rest =>
    have hm' := hnext hdrop
    have hsame : m' = m := hp.eq_of_offset_eq hm'.mem hm.mem
      (Nat.le_antisymm (hm'.least m hm.mem hm.le) (hm.least m' hm'.mem hm'.le))
    exact ⟨rest, by rw [hsame]⟩

theorem dropWhile_dropWhile {α : Type} {p q : α → Bool} (hpq : ∀ a, p a = true → q a = true)
    (l : List α) : (l.dropWhile p).dropWhile q = l.dropWhile q := by
  induction l with
  | nil => rfl
  | cons a l ih =>
    by_cases hp : p a = true
    · rw [List.dropWhile_cons_of_pos hp, List.dropWhile_cons_of_pos (hpq a hp), ih]
    · rw [List.dropWhile_cons_of_neg hp]

/-- Behind a group the search goes on with the marks from there on. -/
theorem dropWhile_behind {ms rest : List Mark} {close : Nat}
    (h : ms.dropWhile (·.offset < n) = m :: rest) (hn : n ≤ m.offset) (hm : m.offset ≤ close) :
    rest.dropWhile (·.offset ≤ close) = ms.dropWhile (·.offset < close + 1) := by
  have hgroup : (m :: rest).dropWhile (·.offset < close + 1) =
      rest.dropWhile (·.offset < close + 1) :=
    List.dropWhile_cons_of_pos (by simpa using Nat.lt_succ_of_le hm)
  have hbehind : (ms.dropWhile (·.offset < n)).dropWhile (·.offset < close + 1) =
      ms.dropWhile (·.offset < close + 1) :=
    dropWhile_dropWhile (fun k hk => by simp only [decide_eq_true_eq] at hk ⊢; omega) ms
  rw [← hbehind, h, hgroup]
  simp only [Nat.lt_succ_iff]

theorem leads_of_blockAmong {ms : List Mark} {b : Block}
    (hms : (ofText t).marks.dropWhile (·.offset < n) = ms) (h : (ofText t).blockAmong ms = some b) :
    (ofText t).Leads n b := by
  have hnext : ∀ {n m rest}, (ofText t).marks.dropWhile (·.offset < n) = m :: rest →
      (ofText t).IsNext n m :=
    fun hrest => (dropWhile_eq_cons_iff (sorted_ofText t)).mp ⟨_, hrest⟩
  fun_induction (ofText t).blockAmong ms generalizing n with
  | case1 => simp at h
  | case2 m rest hchar hclose => simp at h
  | case3 m rest hchar close hclose ih =>
    have hle : m.offset ≤ close := Nat.le_of_lt (exists_closer hclose).1
    exact .group (hnext hms) (by simpa using hchar) hclose
      (ih (dropWhile_behind hms (hnext hms).le hle).symm h)
  | case4 m rest hparen hbrace =>
    obtain rfl := Option.some.inj h
    exact .block (hnext hms) (by simpa using hbrace)
  | case5 m rest hparen hbrace => simp at h

/-- **The block that follows an offset is the one that it leads to.** -/
theorem blockAfter_eq_some_iff {b : Block} :
    (ofText t).blockAfter n = some b ↔ (ofText t).Leads n b := by
  have hsorted := sorted_ofText t
  refine ⟨fun h => leads_of_blockAmong rfl h, fun h => ?_⟩
  induction h with
  | @block n m hm hchar =>
    obtain ⟨rest, hrest⟩ := (dropWhile_eq_cons_iff hsorted).mpr hm
    rw [blockAfter, hrest, blockAmong, hchar]
    rfl
  | @group n close m b hm hchar hclose h ih =>
    obtain ⟨rest, hrest⟩ := (dropWhile_eq_cons_iff hsorted).mpr hm
    have hle : m.offset ≤ close := Nat.le_of_lt (exists_closer hclose).1
    rw [blockAfter, hrest, blockAmong, hchar]
    simp only [beq_self_eq_true, if_true, hclose]
    rw [dropWhile_behind hrest hm.le hle]
    exact ih

namespace Leads

variable {t : Text} {n n' : Nat} {b b' : Block}

theorem unique (h : (ofText t).Leads n b) (h' : (ofText t).Leads n b') : b = b' :=
  Option.some.inj ((blockAfter_eq_some_iff.mpr h).symm.trans (blockAfter_eq_some_iff.mpr h'))

theorem closer_eq (h : (ofText t).Leads n b) : b.closer = (ofText t).closer? b.opener := by
  induction h with
  | block hm hchar => rfl
  | group hm hchar hclose h ih => exact ih

/-- A block closes behind the offset that leads to it. -/
theorem lt_closer (h : (ofText t).Leads n b) (hc : b.closer = some c) : n < c := by
  induction h with
  | block hm hchar => exact Nat.lt_of_le_of_lt hm.le (exists_closer hc).1
  | group hm hchar hclose h ih =>
    have hle := hm.le
    have hlt := (exists_closer hclose).1
    have hbehind := ih hc
    omega

/-- An opener that comes next, looked for from before the end of a pair, comes before that end. -/
theorem next_lt_closer (hclose : (ofText t).closer? o = some c) (hn : n ≤ c)
    (hm : (ofText t).IsNext n m) (hopens : m.Opens) : m.offset < c := by
  obtain ⟨-, k, hk, rfl, a, hcloses⟩ := exists_closer hclose
  refine Nat.lt_of_le_of_ne (hm.least k hk hn) fun heq => ?_
  have hsame := (sorted_ofText t).eq_of_offset_eq hm.mem hk heq
  exact Mark.not_opens_of_closes hcloses (hsame ▸ hopens)

/-- **From inside a pair one is led to blocks inside it only.** -/
theorem inside (h : (ofText t).Leads n b) (hclose : (ofText t).closer? o = some c) (ho : o < n)
    (hn : n ≤ c) : ∃ c', b.closer = some c' ∧ c' < c := by
  induction h with
  | block hm hchar =>
    have hlt := next_lt_closer hclose hn hm (Or.inl hchar)
    exact closer?_nested hclose hm.mem (Or.inl hchar) (Nat.lt_of_lt_of_le ho hm.le) hlt
  | group hm hchar hgroup h ih =>
    have hlt := next_lt_closer hclose hn hm (Or.inr hchar)
    obtain ⟨q, hq, hqc⟩ :=
      closer?_nested hclose hm.mem (Or.inr hchar) (Nat.lt_of_lt_of_le ho hm.le) hlt
    obtain rfl := Option.some.inj (hgroup.symm.trans hq)
    have hle := hm.le
    have hmq := (exists_closer hgroup).1
    exact ih (by omega) hqc

/-- **Blocks found further on end no later**, unless they are looked for from behind the end of the
first one.  The induction goes from group to group; the later search starts before the next mark,
inside the group, or behind it. -/
theorem closer_le (h : (ofText t).Leads n b) (h' : (ofText t).Leads n' b') (hn : n ≤ n')
    (hc : b.closer = some c) (hn' : n' ≤ c) : ∃ c', b'.closer = some c' ∧ c' ≤ c := by
  induction h with
  | @block n m hm hchar =>
    rcases Nat.lt_or_ge m.offset n' with hlt | hge
    · obtain ⟨c', hc', hlt'⟩ := h'.inside hc hlt hn'
      exact ⟨c', hc', Nat.le_of_lt hlt'⟩
    · have hsame := unique (.block (hm.of_le hn hge) hchar) h'
      exact ⟨c, hsame ▸ hc, Nat.le_refl c⟩
  | @group n close m b hm hchar hclose h ih =>
    rcases Nat.lt_or_ge m.offset n' with hlt | hge
    · rcases Nat.lt_or_ge close n' with hbehind | hwithin
      · exact ih hbehind hc
      · obtain ⟨c', hc', hlt'⟩ := h'.inside hclose hlt hwithin
        have hend := h.lt_closer hc
        exact ⟨c', hc', by omega⟩
    · have hsame := unique (.group (hm.of_le hn hge) hchar hclose h) h'
      exact ⟨c, hsame ▸ hc, Nat.le_refl c⟩

end Leads

end Punctuation
end SymbolAtlas
