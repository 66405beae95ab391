import SymbolAtlas.Proofs.Brackets
import SymbolAtlas.Proofs.Places

/-!
# Segments, pairs and blocks

A text falls into segments: comments, string literals and, between them, single characters of code
(`Tiles`).  Where a segment ends is told by what opens it and by what follows, so there is one way
to cut a text (`Tiles.unique`), and reading it character by character finds the marks among the code
characters of these segments (`Tiles.marksFrom_eq`).

Openers and closers are paired as a stack does it.  `WellPaired` says what this comes to without a
stack: pairs are of one kind, nested or apart, and complete, in that a closer is paired whenever
nothing is left open between it and an opener of its kind.

The block that follows an offset is looked for behind complete parenthesised groups (`Groups`), and
every way the search can end is told by the first mark behind them
(`Punctuation.blockAfter_behind_groups`).
-/

namespace SymbolAtlas

/-! ### Where segments end -/

/-- What a comment that goes to the end of its line takes behind its opening, and what it leaves. -/
def LineTail (body rest : Text) : Prop := '\n' ∉ body ∧ ∀ c ∈ rest.head?, c = '\n'

/-- What a comment between asterisks takes behind its opening, and what it leaves: it goes to the
first asterisk that a slash follows, or to the end of the text. -/
inductive BlockTail : Text → Text → Prop
  | closed (rest : Text) : BlockTail ['*', '/'] rest
  | unfinished : BlockTail [] []
  | more {c : Char} {body rest : Text} (hopen : ¬ ['*', '/'] <+: c :: (body ++ rest))
      (h : BlockTail body rest) : BlockTail (c :: body) rest

/-- What a string literal takes behind its opening quote, and what it leaves: it goes to the next
quote of its kind that no backslash hides, stops before a line feed unless it is in backquotes, and
else goes to the end of the text, where a backslash may have nothing to hide. -/
inductive LiteralTail (q : Char) : Text → Text → Prop
  | closed (rest : Text) : LiteralTail q [q] rest
  | broken (rest : Text) (hq : q ≠ backquote) : LiteralTail q [] ('\n' :: rest)
  | unfinished : LiteralTail q [] []
  | dangling : LiteralTail q ['\\'] []
  | escape {x : Char} {body rest : Text} (h : LiteralTail q body rest) :
      LiteralTail q ('\\' :: x :: body) rest
  | plain {c : Char} {body rest : Text} (hescape : c ≠ '\\') (hquote : c ≠ q)
      (hbreak : c = '\n' → q = backquote) (h : LiteralTail q body rest) :
      LiteralTail q (c :: body) rest

/-- Every text is cut in exactly one way.  A cut is known from its first part. -/
structure CutsOnce (tail : Text → Text → Prop) : Prop where
  exists_cut : ∀ u, ∃ body rest, u = body ++ rest ∧ tail body rest
  body_eq : ∀ {body rest body' rest'}, tail body rest → tail body' rest' →
    body ++ rest = body' ++ rest' → body = body'

/-- A line comment ends at one place. -/
theorem cutsOnce_lineTail : CutsOnce LineTail := by
  have htake : ∀ {body rest}, LineTail body rest →
      (body ++ rest).takeWhile (· ≠ '\n') = body := by
    rintro body rest ⟨hbody, hrest⟩
    rw [List.takeWhile_append_of_pos fun c hc => by
      simpa using fun heq : c = '\n' => hbody (heq ▸ hc)]
    cases rest with
    | nil => simp
    | cons c rest => simp [hrest c rfl]
  refine ⟨fun u => ?_, fun h h' heq => by rw [← htake h, heq, htake h']⟩
  refine ⟨u.takeWhile (· ≠ '\n'), u.dropWhile (· ≠ '\n'),
    List.takeWhile_append_dropWhile.symm, fun hin => ?_, ?_⟩
  · simpa using List.mem_takeWhile_imp hin
  · intro c hc
    have hhead := List.head?_dropWhile_not (fun c : Char => decide (c ≠ '\n')) u
    rw [Option.mem_def.mp hc] at hhead
    simpa using hhead

/-- So does a block comment. -/
theorem cutsOnce_blockTail : CutsOnce BlockTail := by
  refine ⟨fun u => ?_, fun {body rest body' rest'} h h' heq => ?_⟩
  · induction u with
    | nil => exact ⟨[], [], rfl, .unfinished⟩
    | cons c u ih =>
      by_cases hclose : ['*', '/'] <+: c :: u
      · obtain ⟨rest, hrest⟩ := hclose
        exact ⟨_, rest, hrest.symm, .closed rest⟩
      · obtain ⟨body, rest, rfl, h⟩ := ih
        exact ⟨c :: body, rest, rfl, .more hclose h⟩
  · induction h generalizing body' with
    | closed rest => cases h' <;> grind
    | unfinished => cases h' <;> grind
    | more hopen h ih => cases h' <;> grind

theorem isQuote_cases {q : Char} (h : isQuote q = true) :
    q = '\x22' ∨ q = '\x27' ∨ q = backquote := by
  simpa [isQuote, or_assoc] using h

/-- Every literal comes to an end. -/
theorem LiteralTail.exists_split (q : Char) (u : Text) :
    ∃ body rest, u = body ++ rest ∧ LiteralTail q body rest := by
  induction hn : u.length using Nat.strong_induction_on generalizing u with
  | _ n ih =>
    subst hn
    rcases u with - | ⟨c, u⟩
    · exact ⟨[], [], rfl, .unfinished⟩
    by_cases hescape : c = '\\'
    · subst hescape
      rcases u with - | ⟨x, u⟩
      · exact ⟨['\\'], [], rfl, .dangling⟩
      · obtain ⟨body, rest, rfl, h⟩ := ih u.length (by simp only [List.length_cons]; omega) u rfl
        exact ⟨_, rest, rfl, h.escape⟩
    by_cases hquote : c = q
    · subst hquote
      exact ⟨[c], u, rfl, .closed u⟩
    by_cases hbreak : c = '\n' → q = backquote
    · obtain ⟨body, rest, rfl, h⟩ := ih u.length (by simp) u rfl
      exact ⟨_, rest, rfl, .plain hescape hquote hbreak h⟩
    · obtain ⟨rfl, hq⟩ := Classical.not_imp.mp hbreak
      exact ⟨[], _, rfl, .broken u hq⟩

/-- **A quote opens a literal that ends in one place**, wherever it stands. -/
theorem cutsOnce_literalTail {q : Char} (hq : isQuote q = true) : CutsOnce (LiteralTail q) := by
  have hne : q ≠ '\\' ∧ q ≠ '\n' := by
    rcases isQuote_cases hq with rfl | rfl | rfl <;> decide
  refine ⟨LiteralTail.exists_split q, fun {body rest body' rest'} h h' heq => ?_⟩
  induction h generalizing body' with
  | closed rest => cases h' <;> grind
  | broken rest hq => cases h' <;> grind
  | unfinished => cases h' <;> grind
  | dangling => cases h' <;> grind
  | escape h ih => cases h' <;> grind
  | plain hescape hquote hbreak h ih => cases h' <;> grind

/-! ### Cutting a text -/

/-- What a segment of a text is. -/
inductive SegmentKind where
  | code
  | lineComment
  | blockComment
  | literal
  deriving DecidableEq, Repr

/-- The kind of the segment with which a text starts. -/
def SegmentKind.ahead : Text → SegmentKind
  | '/' :: '/' :: _ => .lineComment
  | '/' :: '*' :: _ => .blockComment
  | c :: _ => if isQuote c then .literal else .code
  | [] => .code

/-- A stretch of a text. -/
structure Segment where
  kind : SegmentKind
  text : Text

/-- The segment ends where `rest` follows. -/
inductive Segment.EndsAt (rest : Text) : Segment → Prop
  | code {c : Char} (h : SegmentKind.ahead (c :: rest) = .code) : EndsAt rest ⟨.code, [c]⟩
  | lineComment {body : Text} (h : LineTail body rest) :
      EndsAt rest ⟨.lineComment, '/' :: '/' :: body⟩
  | blockComment {body : Text} (h : BlockTail body rest) :
      EndsAt rest ⟨.blockComment, '/' :: '*' :: body⟩
  | literal {q : Char} {body : Text} (hq : isQuote q = true) (h : LiteralTail q body rest) :
      EndsAt rest ⟨.literal, q :: body⟩

/-- The text consists of the segments, one after the other. -/
inductive Tiles : Text → List Segment → Prop
  | nil : Tiles [] []
  | cons {s : Segment} {rest : Text} {segs : List Segment} (hs : s.EndsAt rest)
      (h : Tiles rest segs) : Tiles (s.text ++ rest) (s :: segs)

namespace SegmentKind

/-- A quote starts a literal. -/
theorem ahead_quote {q : Char} (hq : isQuote q = true) (u : Text) : ahead (q :: u) = .literal := by
  rcases isQuote_cases hq with rfl | rfl | rfl <;> rfl

/-- What starts nothing else is code. -/
theorem ahead_code {c : Char} {u : Text} (hquote : isQuote c = false)
    (hslash : c = '/' → u.head? ≠ some '/' ∧ u.head? ≠ some '*') : ahead (c :: u) = .code := by
  rw [ahead.eq_3 c u (fun _ hc hu => (hslash hc).1 (hu ▸ rfl)) fun _ hc hu =>
    (hslash hc).2 (hu ▸ rfl), hquote]
  rfl

end SegmentKind

namespace Segment.EndsAt

variable {s s' : Segment} {rest rest' : Text}

theorem text_ne_nil (h : s.EndsAt rest) : s.text ≠ [] := by
  cases h <;> exact List.cons_ne_nil _ _

/-- A segment is of the kind that its start announces. -/
theorem kind_eq (h : s.EndsAt rest) : s.kind = SegmentKind.ahead (s.text ++ rest) := by
  cases h with
  | code h => exact h.symm
  | lineComment h | blockComment h => rfl
  | literal hq h => exact (SegmentKind.ahead_quote hq _).symm

/-- A segment and what is behind it are found in one way. -/
theorem unique (h : s.EndsAt rest) (h' : s'.EndsAt rest')
    (heq : s.text ++ rest = s'.text ++ rest') : s = s' ∧ rest = rest' := by
  have hkind : s.kind = s'.kind := by rw [h.kind_eq, h'.kind_eq, heq]
  have htext : s = s' := by
    cases h <;> cases h' <;> cases hkind
    case code.code => simpa using (List.cons.inj heq).1
    case lineComment.lineComment h _ h' =>
      rw [cutsOnce_lineTail.body_eq h h' (by simpa using heq)]
    case blockComment.blockComment h _ h' =>
      rw [cutsOnce_blockTail.body_eq h h' (by simpa using heq)]
    case literal.literal hq h _ _ _ h' =>
      obtain ⟨rfl, htails⟩ := List.cons.inj heq
      rw [(cutsOnce_literalTail hq).body_eq h h' htails]
  subst htext
  exact ⟨rfl, List.append_cancel_left heq⟩

end Segment.EndsAt

/-- Some segment comes first in a text that is not empty. -/
theorem Segment.exists_endsAt (c : Char) (u : Text) :
    ∃ (s : Segment) (rest : Text), c :: u = s.text ++ rest ∧ s.EndsAt rest := by
  cases hquote : isQuote c with
  | true =>
    obtain ⟨body, rest, rfl, h⟩ := LiteralTail.exists_split c u
    exact ⟨_, rest, rfl, .literal hquote h⟩
  | false =>
    by_cases hcode : c = '/' → u.head? ≠ some '/' ∧ u.head? ≠ some '*'
    · exact ⟨_, u, rfl, .code (SegmentKind.ahead_code hquote hcode)⟩
    obtain ⟨rfl, hopen⟩ := Classical.not_imp.mp hcode
    rcases Decidable.not_and_iff_not_or_not.mp hopen with hline | hblock
    · obtain ⟨u, rfl⟩ := List.head?_eq_some_iff.mp (Classical.not_not.mp hline)
      obtain ⟨body, rest, rfl, h⟩ := cutsOnce_lineTail.exists_cut u
      exact ⟨_, rest, rfl, .lineComment h⟩
    · obtain ⟨u, rfl⟩ := List.head?_eq_some_iff.mp (Classical.not_not.mp hblock)
      obtain ⟨body, rest, rfl, h⟩ := cutsOnce_blockTail.exists_cut u
      exact ⟨_, rest, rfl, .blockComment h⟩

namespace Tiles

variable {t : Text} {segs segs' : List Segment}

/-- Every text is cut into segments. -/
theorem exists_tiles (t : Text) : ∃ segs, Tiles t segs := by
  induction hn : t.length using Nat.strong_induction_on generalizing t with
  | _ n ih =>
    subst hn
    cases t with
    | nil => exact ⟨[], .nil⟩
    | cons c u =>
      obtain ⟨s, rest, heq, hs⟩ := Segment.exists_endsAt c u
      have hpos := List.length_pos_of_ne_nil hs.text_ne_nil
      obtain ⟨segs, h⟩ := ih rest.length (by rw [heq, List.length_append]; omega) rest rfl
      exact ⟨s :: segs, heq ▸ .cons hs h⟩

/-- **There is one way to cut a text.** -/
theorem unique (h : Tiles t segs) (h' : Tiles t segs') : segs = segs' := by
  induction h generalizing segs' with
  | nil =>
    generalize ht : ([] : Text) = t at h'
    cases h' with
    | nil => rfl
    | cons hs h => exact absurd (List.append_eq_nil_iff.mp ht.symm).1 hs.text_ne_nil
  | @cons s rest segs hs h ih =>
    generalize ht : s.text ++ rest = t at h'
    cases h' with
    | nil => exact absurd (List.append_eq_nil_iff.mp ht).1 hs.text_ne_nil
    | cons hs' h' =>
      obtain ⟨rfl, rfl⟩ := hs.unique hs' ht
      rw [ih h']

/-- The segments make up the text, and none of them is empty. -/
theorem covers (h : Tiles t segs) :
    (segs.map Segment.text).flatten = t ∧ ∀ s ∈ segs, s.text ≠ [] := by
  induction h with
  | nil => exact ⟨rfl, fun s hs => by cases hs⟩
  | cons hs h ih =>
    rw [List.map_cons, List.flatten_cons, ih.1]
    exact ⟨rfl, List.forall_mem_cons.mpr ⟨hs.text_ne_nil, ih.2⟩⟩

end Tiles

/-! ### Marks among the code characters -/

/-- The marks among the code characters of segments, the first of which starts at `offset`. -/
def Segment.marks (offset : Nat) : List Segment → List Mark
  | [] => []
  | s :: segs =>
    (if s.kind = .code then (s.text.filter isMark).map (⟨offset, ·⟩) else []) ++
      marks (offset + s.text.length) segs

/-- A slash that starts no comment is code. -/
theorem marksFrom_slash {u : Text} (hslash : u.head? ≠ some '/') (hstar : u.head? ≠ some '*')
    (o : Nat) : marksFrom .slash o u = marksFrom .code o u := by
  cases u with
  | nil => rfl
  | cons c u =>
    have hstep : Mode.step .slash c = Mode.step .code c := by
      simp only [List.head?_cons, ne_eq, Option.some.injEq] at hslash hstar
      simp [Mode.step, hslash, hstar]
    rw [marksFrom, marksFrom, hstep]
    rfl

/-- There are no marks in a line comment. -/
theorem LineTail.marksFrom_eq {body rest : Text} (h : LineTail body rest) (o : Nat) :
    marksFrom .lineComment o (body ++ rest) = marksFrom .code (o + body.length) rest := by
  obtain ⟨hbody, hrest⟩ := h
  induction body generalizing o with
  | nil =>
    cases rest with
    | nil => rfl
    | cons c rest =>
      obtain rfl := hrest c rfl
      rfl
  | cons c body ih =>
    obtain ⟨hc, hbody⟩ : c ≠ '\n' ∧ '\n' ∉ body := by simpa [eq_comm] using hbody
    have hstep : Mode.step .lineComment c = .lineComment := by simp [Mode.step, hc]
    rw [List.length_cons, show o + (body.length + 1) = o + 1 + body.length by omega,
      ← ih (o + 1) hbody, List.cons_append, marksFrom, hstep]
    rfl

/-- In a comment between asterisks one asterisk may have been read, if no slash follows. -/
theorem BlockTail.marksFrom_eq {body rest : Text} (h : BlockTail body rest) (o : Nat) :
    marksFrom .blockComment o (body ++ rest) = marksFrom .code (o + body.length) rest ∧
      ((body ++ rest).head? ≠ some '/' →
        marksFrom .blockStar o (body ++ rest) = marksFrom .code (o + body.length) rest) := by
  induction h generalizing o with
  | closed rest => exact ⟨rfl, fun _ => rfl⟩
  | unfinished => exact ⟨rfl, fun _ => rfl⟩
  | @more c body rest hopen h ih =>
    obtain ⟨hcomment, hstar⟩ := ih (o + 1)
    have hlen : o + (c :: body).length = o + 1 + body.length := by
      rw [List.length_cons]
      omega
    rw [hlen, List.cons_append]
    by_cases hc : c = '*'
    · subst hc
      have hnext : (body ++ rest).head? ≠ some '/' := by
        intro hhead
        obtain ⟨u, hu⟩ := List.head?_eq_some_iff.mp hhead
        exact hopen ⟨u, by rw [hu]; rfl⟩
      exact ⟨hstar hnext, fun _ => hstar hnext⟩
    · refine ⟨?_, fun hhead => ?_⟩
      · have hstep : Mode.step .blockComment c = .blockComment := by simp [Mode.step, hc]
        rw [marksFrom, hstep]
        exact hcomment
      · have hslash : c ≠ '/' := by simpa using hhead
        have hstep : Mode.step .blockStar c = .blockComment := by simp [Mode.step, hc, hslash]
        rw [marksFrom, hstep]
        exact hcomment

/-- Nor in a literal. -/
theorem LiteralTail.marksFrom_eq {q : Char} (hq : isQuote q = true) {body rest : Text}
    (h : LiteralTail q body rest) (o : Nat) :
    marksFrom (.literal q) o (body ++ rest) = marksFrom .code (o + body.length) rest := by
  have hne : q ≠ '\\' ∧ q ≠ '\n' := by
    rcases isQuote_cases hq with rfl | rfl | rfl <;> decide
  induction h generalizing o with
  | closed rest =>
    have hstep : Mode.step (.literal q) q = .code := by simp [Mode.step, hne.1]
    rw [List.singleton_append, marksFrom, hstep]
    rfl
  | broken rest hback =>
    have hstep : Mode.step (.literal q) '\n' = .code := by
      simp [Mode.step, hback, Ne.symm hne.2]
    rw [List.nil_append, marksFrom, hstep]
    rfl
  | unfinished => rfl
  | dangling => rfl
  | @escape x body rest h ih =>
    rw [List.length_cons, List.length_cons, show o + (body.length + 1 + 1) = o + 1 + 1 + body.length
      by omega, ← ih (o + 1 + 1)]
    rfl
  | @plain c body rest hescape hquote hbreak h ih =>
    have hstep : Mode.step (.literal q) c = .literal q := by
      simp only [Mode.step, beq_iff_eq, hescape, hquote, if_false, Bool.and_eq_true, bne_iff_ne]
      exact if_neg fun ⟨hc, hback⟩ => hback (hbreak hc)
    rw [List.length_cons, show o + (body.length + 1) = o + 1 + body.length by omega,
      ← ih (o + 1), List.cons_append, marksFrom, hstep]
    rfl

/-- **The marks are the code characters among them**, at their offsets. -/
theorem Tiles.marksFrom_eq {t : Text} {segs : List Segment} (h : Tiles t segs) (o : Nat) :
    marksFrom .code o t = Segment.marks o segs := by
  induction h generalizing o with
  | nil => rfl
  | @cons s rest segs hs h ih =>
    rw [Segment.marks, ← ih]
    cases hs with
    | @code c hahead =>
      have hnext : marksFrom (Mode.afterCode c) (o + 1) rest = marksFrom .code (o + 1) rest := by
        have hquote : isQuote c = false := by
          rw [← Bool.not_eq_true]
          intro hq
          rw [SegmentKind.ahead_quote hq] at hahead
          cases hahead
        rw [Mode.afterCode, hquote]
        by_cases hslash : c = '/'
        · subst hslash
          refine marksFrom_slash (fun hx => ?_) (fun hx => ?_) _
          all_goals
            obtain ⟨u, rfl⟩ := List.head?_eq_some_iff.mp hx
            cases hahead
        · simp [hslash]
      rw [List.singleton_append, marksFrom, show Mode.step .code c = Mode.afterCode c from rfl,
        hnext]
      cases hmark : isMark c <;> simp [hmark, Mode.readsCode]
    | @lineComment body hbody =>
      rw [List.length_cons, List.length_cons, show o + (body.length + 1 + 1) = o + 2 + body.length
        by omega]
      exact hbody.marksFrom_eq (o + 2)
    | @blockComment body hbody =>
      rw [List.length_cons, List.length_cons, show o + (body.length + 1 + 1) = o + 2 + body.length
        by omega]
      exact (hbody.marksFrom_eq (o + 2)).1
    | @literal q body hq hbody =>
      have hstep : Mode.step .code q = .literal q := by simp [Mode.step, Mode.afterCode, hq]
      have hmark : isMark q = false := by
        rcases isQuote_cases hq with rfl | rfl | rfl <;> decide
      rw [List.length_cons, show o + (body.length + 1) = o + 1 + body.length by omega,
        List.cons_append, marksFrom, hstep, hmark, Bool.and_false, if_neg Bool.false_ne_true]
      exact hbody.marksFrom_eq hq (o + 1)

/-! ### Pairs -/

/-- Marks and pairs of them fit: a pair is an opener and a later closer of its kind, no mark is in
two pairs, pairs are nested or apart, and what opens inside a pair is closed inside it.  A closer
finds its opener: one of its kind is closed by then if nothing is left open in between. -/
structure WellPaired (marks : List Mark) (pairs : List (Nat × Nat)) : Prop where
  matched : ∀ {o c}, (o, c) ∈ pairs →
    o < c ∧ ∃ a ∈ marks, ∃ b ∈ marks, a.offset = o ∧ b.offset = c ∧ b.closes a = true
  closer_unique : ∀ {o c c'}, (o, c) ∈ pairs → (o, c') ∈ pairs → c = c'
  opener_unique : ∀ {o o' c}, (o, c) ∈ pairs → (o', c) ∈ pairs → o = o'
  nested_or_apart : ∀ {o c o' c'}, (o, c) ∈ pairs → (o', c') ∈ pairs → o < o' → c < o' ∨ c' < c
  inside : ∀ {o c}, (o, c) ∈ pairs → ∀ a ∈ marks, a.Opens → o < a.offset → a.offset < c →
    ∃ c', (a.offset, c') ∈ pairs ∧ c' < c
  complete : ∀ a ∈ marks, ∀ b ∈ marks, a.offset < b.offset → b.closes a = true →
    (∀ k ∈ marks, k.Opens → a.offset < k.offset → k.offset < b.offset →
      ∃ c, (k.offset, c) ∈ pairs ∧ c < b.offset) → ∃ c ≤ b.offset, (a.offset, c) ∈ pairs

/-- What is closed was opened. -/
theorem Mark.opens_of_closes {a b : Mark} (h : b.closes a = true) : a.Opens := by
  simp only [closes, Bool.or_eq_true, Bool.and_eq_true, beq_iff_eq] at h
  exact h.imp And.right And.right

/-- Pairs are listed by their closers. -/
theorem closers_sublist_pairsFrom (opened ms : List Mark) :
    ((pairsFrom opened ms).map Prod.snd).Sublist (ms.map Mark.offset) := by
  fun_induction pairsFrom opened ms with
  | case1 => exact List.Sublist.refl _
  | case2 opened m ms hm ih => exact ih.cons _
  | case3 m ms hm ih => exact ih.cons _
  | case4 m ms hm top below hcloses ih => exact ih.cons_cons _
  | case5 m ms hm top below hcloses ih => exact ih.cons _

/-- **A closer finds its opener.**  Reading up to the closer, what was opened behind the opener is
closed and taken off the stack, so that the opener is on top if it is still there. -/
theorem pairsFrom_complete {a b : Mark} (hcloses : b.closes a = true) {post : List Mark}
    (pre : List Mark) : ∀ opened, Stacked opened (pre ++ b :: post) → a ∈ opened ∨ a ∈ pre →
      (∀ k, k ∈ opened ∨ k ∈ pre ∧ k.Opens → a.offset < k.offset →
        ∃ c, (k.offset, c) ∈ pairsFrom opened (pre ++ b :: post) ∧ c < b.offset) →
      ∃ c ≤ b.offset, (a.offset, c) ∈ pairsFrom opened (pre ++ b :: post) := by
  induction pre with
  | nil =>
    intro opened h ha hbetween
    have hb : (b.char == '{' || b.char == '(') = false := by
      rw [← Bool.not_eq_true, Mark.opens_iff]
      exact Mark.not_opens_of_closes hcloses
    rcases opened with - | ⟨top, below⟩
    · simp at ha
    by_cases hat : a = top
    · exact ⟨b.offset, Nat.le_refl _, by simp [pairsFrom, hb, ← hat, hcloses]⟩
    · -- another mark is on top, and would have to be closed before
      have hbelow : a ∈ below := by simpa [hat] using ha
      obtain ⟨c, hc, hlate⟩ := hbetween top (by simp) (h.below_top hbelow)
      obtain ⟨-, -, b', hb', -, rfl, -⟩ := exists_marks_of_mem_pairsFrom hc
      rcases List.mem_cons.mp hb' with rfl | hb'
      · exact absurd hlate (Nat.lt_irrefl _)
      · exact absurd hlate (Nat.lt_asymm (h.head_lt hb'))
  | cons m pre ih =>
    intro opened h ha hbetween
    by_cases hm : m.Opens
    · simp only [List.cons_append, pairsFrom, if_pos (Mark.opens_iff.mpr hm)] at hbetween ⊢
      exact ih (m :: opened) h.push (by grind) fun k hk => hbetween k (by grind)
    have hne : a ≠ m := fun heq => hm (heq ▸ Mark.opens_of_closes hcloses)
    have hread := mt Mark.opens_iff.mp hm
    rcases opened with - | ⟨top, below⟩
    · simp only [List.cons_append, pairsFrom, if_neg hread] at hbetween ⊢
      exact ih [] h.skip (by grind) fun k hk => hbetween k (by grind)
    by_cases htop : m.closes top = true
    · simp only [List.cons_append, pairsFrom, if_neg hread, if_pos htop] at hbetween ⊢
      by_cases hat : a = top
      · exact ⟨m.offset, Nat.le_of_lt (h.head_lt (by simp)), hat ▸ List.mem_cons_self ..⟩
      obtain ⟨c, hc, hpair⟩ := ih below h.skip.pop (by grind) fun k hk hak => by
        obtain ⟨c, hc, hlate⟩ := hbetween k (by grind) hak
        have hoff : k.offset ≠ top.offset := by
          rcases hk with hk | ⟨hk, -⟩
          · exact Nat.ne_of_lt (h.below_top hk)
          · exact Nat.ne_of_gt (h.skip.opened_lt (List.mem_cons_self ..) (by simp [hk]))
        exact ⟨c, (List.mem_cons.mp hc).resolve_left fun heq => hoff (Prod.mk.inj heq).1, hlate⟩
      exact ⟨c, hc, List.mem_cons_of_mem _ hpair⟩
    · simp only [List.cons_append, pairsFrom, if_neg hread, if_neg htop] at hbetween ⊢
      exact ih (top :: below) h.skip (by grind) fun k hk => hbetween k (by grind)

namespace Punctuation

/-- **The marks of a text are well paired.** -/
theorem wellPaired (t : Text) : WellPaired (ofText t).marks (ofText t).pairs := by
  have hsorted := sorted_ofText t
  have hstacked := stacked_ofText t
  have hclosers : ((ofText t).pairs.map Prod.snd).Nodup :=
    (closers_sublist_pairsFrom [] (ofText t).marks).nodup
      (List.pairwise_map.mpr (hsorted.imp fun hlt => Nat.ne_of_lt hlt))
  have hunique : ∀ {o c c'}, (o, c) ∈ (ofText t).pairs → (o, c') ∈ (ofText t).pairs → c = c' :=
    fun h h' => Option.some.inj
      ((closer?_eq_some_iff.mpr h).symm.trans (closer?_eq_some_iff.mpr h'))
  refine ⟨fun h => ⟨lt_of_mem_pairsFrom hstacked h, exists_marks_of_mem_pairsFrom h⟩, hunique,
    fun h h' => ?_, fun {o c o' c'} h h' hlt => ?_,
    fun h a ha hopens hoa hac => pairsFrom_nested hstacked h ha hopens hoa hac,
    fun a ha b hb hlt hcloses hbetween => ?_⟩
  · exact (Prod.mk.inj (List.inj_on_of_nodup_map hclosers h h' rfl)).1
  · obtain ⟨a, -, b, hb, -, rfl, hcloses⟩ := exists_marks_of_mem_pairsFrom h
    obtain ⟨a', ha', b', -, rfl, -, hcloses'⟩ := exists_marks_of_mem_pairsFrom h'
    have hopens := Mark.opens_of_closes hcloses'
    rcases Nat.lt_trichotomy b.offset a'.offset with happart | hsame | hwithin
    · exact Or.inl happart
    · have heq := hsorted.eq_of_offset_eq hb ha' hsame
      exact absurd (heq ▸ hopens) (Mark.not_opens_of_closes hcloses)
    · obtain ⟨c'', h'', hlate⟩ := pairsFrom_nested hstacked h ha' hopens hlt hwithin
      exact Or.inr (hunique h' h'' ▸ hlate)
  · obtain ⟨pre, post, hsplit⟩ := List.append_of_mem hb
    have hpairs : (ofText t).pairs = pairsFrom [] (pre ++ b :: post) := hsplit ▸ rfl
    rw [hsplit] at ha hstacked hsorted hbetween
    obtain ⟨-, hpost, hpre⟩ := List.pairwise_append.mp hsorted
    have ha' : a ∈ pre := by
      rcases List.mem_append.mp ha with ha | ha
      · exact ha
      · have := (List.pairwise_cons.mp hpost).1
        grind
    rw [hpairs] at hbetween ⊢
    exact pairsFrom_complete hcloses pre [] hstacked (Or.inr ha') fun k hk hak =>
      hbetween k (by grind) (by grind) hak (by grind)

/-- **A text falls into segments, and its marks into pairs.**  There is exactly one way to cut a
text into comments, literals and single code characters, which are none of them empty and make up
the whole text.  Wherever a quote stands, the literal it opens ends in one place, past the quote and
not past the text.  The marks are those among the code characters, in the order of their offsets,
and they are well paired. -/
theorem tiled_and_paired (t : Text) :
    (∃ segs, Tiles t segs ∧ (∀ segs', Tiles t segs' → segs' = segs) ∧
      (segs.map Segment.text).flatten = t ∧ (∀ s ∈ segs, s.text ≠ []) ∧
      (ofText t).marks = Segment.marks 0 segs) ∧
      (∀ (i : Nat) (q : Char), t[i]? = some q → isQuote q = true →
        ∃! stop, i < stop ∧ stop ≤ t.length ∧
          LiteralTail q ((t.drop (i + 1)).take (stop - (i + 1))) (t.drop stop)) ∧
      (ofText t).marks.Pairwise (·.offset < ·.offset) ∧
      WellPaired (ofText t).marks (ofText t).pairs := by
  obtain ⟨segs, h⟩ := Tiles.exists_tiles t
  refine ⟨⟨segs, h, fun _ h' => h'.unique h, h.covers.1, h.covers.2,
    h.marksFrom_eq 0⟩, fun i q hi hq => ?_, sorted_ofText t, wellPaired t⟩
  have hlt := (List.getElem?_eq_some_iff.mp hi).1
  obtain ⟨body, rest, hcut, htail⟩ := LiteralTail.exists_split q (t.drop (i + 1))
  have hlen : t.length - (i + 1) = body.length + rest.length := by
    rw [← List.length_drop, hcut, List.length_append]
  have hrest : ∀ stop, i < stop → (t.drop (i + 1)).drop (stop - (i + 1)) = t.drop stop := by
    intro stop hstop
    rw [List.drop_drop, Nat.add_sub_cancel' hstop]
  refine ⟨i + 1 + body.length, ⟨by omega, by omega, ?_⟩, fun stop ⟨hstart, hend, h'⟩ => ?_⟩
  · have hbehind := hrest (i + 1 + body.length) (by omega)
    rw [Nat.add_sub_cancel_left, hcut, List.drop_left] at hbehind
    rw [← hbehind, Nat.add_sub_cancel_left, hcut, List.take_left]
    exact htail
  · rw [← hrest stop hstart] at h'
    have hbody := (cutsOnce_literalTail hq).body_eq h' htail (by rw [List.take_append_drop, hcut])
    replace hbody := congrArg List.length hbody
    rw [List.length_take, List.length_drop] at hbody
    omega

/-! ### Blocks -/

/-- Complete parenthesised groups, one after the other: each goes from a parenthesis to the mark
that closes it. -/
inductive Groups (p : Punctuation) : List Mark → Prop
  | nil : Groups p []
  | cons {m close : Mark} {inner rest : List Mark} (hchar : m.char = '(')
      (hclose : p.closer? m.offset = some close.offset) (h : Groups p rest) :
      Groups p (m :: (inner ++ close :: rest))

/-- The marks from an offset on. -/
def marksAfter (p : Punctuation) (n : Nat) : List Mark := p.marks.filter (n ≤ ·.offset)

theorem marksAfter_eq (t : Text) (n : Nat) :
    (ofText t).marksAfter n = (ofText t).marks.dropWhile (·.offset < n) := by
  have hsorted : (ofText t).marks.Pairwise (·.offset < ·.offset) := sorted_ofText t
  unfold marksAfter
  generalize (ofText t).marks = ms at hsorted ⊢
  induction ms with
  | nil => rfl
  | cons m ms ih =>
    obtain ⟨hm, hms⟩ := List.pairwise_cons.mp hsorted
    by_cases hn : n ≤ m.offset
    · have hall : ∀ k ∈ m :: ms, n ≤ k.offset := by grind
      rw [List.filter_eq_self.mpr (by simpa using hall), List.dropWhile_cons_of_neg (by simpa)]
    · rw [List.filter_cons_of_neg (by simpa using hn),
        List.dropWhile_cons_of_pos (by simpa using hn), ih hms]

variable {t : Text}

/-- Behind a group the search goes on with the mark behind the one that closes it. -/
theorem blockAmong_group {m close : Mark} {inner rest : List Mark}
    (hms : m :: (inner ++ close :: rest) <:+ (ofText t).marks) (hchar : m.char = '(')
    (hclose : (ofText t).closer? m.offset = some close.offset) :
    (ofText t).blockAmong (m :: (inner ++ close :: rest)) = (ofText t).blockAmong rest := by
  have hsorted : MarksSorted (inner ++ close :: rest) :=
    (List.pairwise_cons.mp ((sorted_ofText t).sublist hms.sublist)).2
  obtain ⟨-, hrest, hinner⟩ := List.pairwise_append.mp hsorted
  have hdrop : (inner ++ close :: rest).dropWhile (·.offset ≤ close.offset) = rest := by
    rw [List.dropWhile_append_of_pos fun k hk => by
        simpa using Nat.le_of_lt (hinner k hk close (List.mem_cons_self ..)),
      List.dropWhile_cons_of_pos (by simp)]
    refine List.dropWhile_eq_self_iff.mpr fun hpos => ?_
    have hlt := (List.pairwise_cons.mp hrest).1 _ (List.getElem_mem hpos)
    simpa using hlt
  rw [blockAmong, hchar]
  simp only [beq_self_eq_true, if_true, hclose, hdrop]

/-- Groups are passed over. -/
theorem Groups.blockAmong_append {done rest : List Mark} (h : (ofText t).Groups done)
    (hms : done ++ rest <:+ (ofText t).marks) :
    (ofText t).blockAmong (done ++ rest) = (ofText t).blockAmong rest := by
  induction h with
  | nil => rfl
  | @cons m close inner done hchar hclose h ih =>
    rw [List.cons_append, List.append_assoc, List.cons_append] at hms ⊢
    rw [blockAmong_group hms hchar hclose]
    exact ih ((List.suffix_cons close _).trans
      ((List.suffix_append (m :: inner) (close :: (done ++ rest))).trans hms))

/-- Where marks do not start with a group there are groups, as many as there can be, and then no
group. -/
theorem exists_groups {ms : List Mark} (hms : ms <:+ (ofText t).marks) :
    ∃ done rest, ms = done ++ rest ∧ (ofText t).Groups done ∧
      ∀ m ∈ rest.head?, m.char = '(' → (ofText t).closer? m.offset = none := by
  induction hn : ms.length using Nat.strong_induction_on generalizing ms with
  | _ n ih =>
    subst hn
    rcases ms with - | ⟨m, ms⟩
    · exact ⟨[], [], rfl, .nil, fun m hm => by cases hm⟩
    by_cases hgroup : m.char = '(' → (ofText t).closer? m.offset = none
    · exact ⟨[], m :: ms, rfl, .nil, fun k hk => by
        obtain rfl := Option.some.inj hk
        exact hgroup⟩
    obtain ⟨hchar, hclose⟩ := Classical.not_imp.mp hgroup
    obtain ⟨c, hc⟩ := Option.ne_none_iff_exists'.mp hclose
    obtain ⟨hlt, close, hmem, rfl, -⟩ := exists_closer hc
    -- what closes the parenthesis stands behind it, and so among the marks that are left
    obtain ⟨inner, rest, rfl⟩ : ∃ inner rest, ms = inner ++ close :: rest := by
      refine List.append_of_mem ?_
      obtain ⟨before, hbefore⟩ := hms
      have hsorted := sorted_ofText t
      rw [← hbefore] at hmem hsorted
      rcases List.mem_append.mp hmem with hin | hin
      · have := (List.pairwise_append.mp hsorted).2.2 close hin m (List.mem_cons_self ..)
        omega
      · exact (List.mem_cons.mp hin).resolve_left fun heq => Nat.ne_of_gt hlt (heq ▸ rfl)
    obtain ⟨done, rest, rfl, h, hstop⟩ := ih rest.length
      (by simp only [List.length_cons, List.length_append]; omega)
      ((List.suffix_cons close _).trans
        ((List.suffix_append (m :: inner) (close :: rest)).trans hms)) rfl
    exact ⟨m :: (inner ++ close :: done), rest, by simp, .cons hchar hc h, hstop⟩

/-- A brace opens the block. -/
theorem blockAmong_brace {m : Mark} (hm : m.char = '{') (rest : List Mark) :
    (ofText t).blockAmong (m :: rest) = some ⟨m.offset, (ofText t).closer? m.offset⟩ := by
  rw [blockAmong, hm]
  rfl

/-- No block comes first where another mark does, unless this one opens a group. -/
theorem blockAmong_other {m : Mark} (hm : m.char ≠ '{')
    (hgroup : m.char = '(' → (ofText t).closer? m.offset = none) (rest : List Mark) :
    (ofText t).blockAmong (m :: rest) = none := by
  rw [blockAmong]
  split_ifs with hparen hbrace
  · rw [hgroup (by simpa using hparen)]
  · exact absurd (by simpa using hbrace) hm
  · rfl

theorem marksAfter_suffix (t : Text) (n : Nat) :
    (ofText t).marksAfter n <:+ (ofText t).marks :=
  marksAfter_eq t n ▸ List.dropWhile_suffix _

/-- Groups in front of a block are passed over. -/
theorem Groups.blockAfter_eq {n : Nat} {done rest : List Mark} (h : (ofText t).Groups done)
    (heq : (ofText t).marksAfter n = done ++ rest) :
    (ofText t).blockAfter n = (ofText t).blockAmong rest := by
  rw [blockAfter, ← marksAfter_eq, heq]
  exact h.blockAmong_append (heq ▸ marksAfter_suffix t n)

/-- **A declaration's own block.**  The search from an offset finds the block that opens behind
complete parenthesised groups with nothing else before it, closed or not.  It finds nothing exactly
if behind such groups there is nothing, or a semicolon, a closer, or a parenthesis that is never
closed. -/
theorem blockAfter_behind_groups (t : Text) (n : Nat) :
    (∀ o close, (ofText t).blockAfter n = some ⟨o, close⟩ ↔
      ∃ done m rest, (ofText t).marksAfter n = done ++ m :: rest ∧ (ofText t).Groups done ∧
        m.char = '{' ∧ m.offset = o ∧ (ofText t).closer? o = close) ∧
      ((ofText t).blockAfter n = none ↔
        ∃ done rest, (ofText t).marksAfter n = done ++ rest ∧ (ofText t).Groups done ∧
          ∀ m ∈ rest.head?, m.char = ';' ∨ m.char = '}' ∨ m.char = ')' ∨
            m.char = '(' ∧ (ofText t).closer? m.offset = none) := by
  -- the groups that come first, and then a mark that opens none
  obtain ⟨done, rest, heq, h, hstop⟩ := exists_groups (marksAfter_suffix t n)
  refine ⟨fun o close => ⟨fun hfound => ?_, ?_⟩, fun hnone => ?_, ?_⟩
  · rw [h.blockAfter_eq heq] at hfound
    rcases rest with - | ⟨m, rest⟩
    · simp [blockAmong] at hfound
    by_cases hm : m.char = '{'
    · rw [blockAmong_brace hm] at hfound
      cases hfound
      exact ⟨done, m, rest, heq, h, hm, rfl, rfl⟩
    · rw [blockAmong_other hm (hstop m rfl)] at hfound
      cases hfound
  · rintro ⟨done, m, rest, heq, h, hm, rfl, rfl⟩
    rw [h.blockAfter_eq heq, blockAmong_brace hm]
  · refine ⟨done, rest, heq, h, fun m hm => ?_⟩
    obtain ⟨rest, rfl⟩ := List.head?_eq_some_iff.mp hm
    rw [h.blockAfter_eq heq] at hnone
    have hmem : m ∈ (ofText t).marks :=
      (marksAfter_suffix t n).subset (heq ▸ List.mem_append_right _ (List.mem_cons_self ..))
    rcases isMark_cases (exists_split_of_mem_marksFrom hmem).1 with hc | hc | hc | hc | hc
    · rw [blockAmong_brace hc] at hnone
      cases hnone
    · exact Or.inr (Or.inl hc)
    · exact Or.inr (Or.inr (Or.inr ⟨hc, hstop m rfl hc⟩))
    · exact Or.inr (Or.inr (Or.inl hc))
    · exact Or.inl hc
  · rintro ⟨done, rest, heq, h, hend⟩
    rw [h.blockAfter_eq heq]
    rcases rest with - | ⟨m, rest⟩
    · rw [blockAmong]
    have hm := hend m rfl
    exact blockAmong_other (fun hbrace => by simp [hbrace] at hm)
      (fun hparen => by simpa [hparen] using hm) rest

end Punctuation

end SymbolAtlas
