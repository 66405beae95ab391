import Mathlib.Computability.Language
import SymbolAtlas.Proofs.Outline

/-!
# The line grammar as languages

The table of the line grammar once more, this time as languages over characters: what stands in
front of the name of a class, a function or a method, and what stands behind the name of a method.
`Naming.Fits front back line n` says that `n` is a whole word of the line with such texts around
it; no reader occurs in it.

A reader passes over a text of a language and goes on as the reader it is built on
(`Reader.Passes`), so a reader of lines reads the product of such languages (`Reader.Reads`).  An
optional word is the one place where a reader has a choice.  Whichever way it goes there, the other
way is closed: a reader that begins with one of the words `firsts` does not fit where another word
and then a name follow (`Reader.Fragment`).

The main results are `LineKind.ofLine_eq_classLine_iff` and its siblings, which say what each kind
of line looks like, and `Reader.Reads.unique`: a line bears one name of each kind at most.
-/

namespace SymbolAtlas

variable {c : Char}

/-! ### The languages of the grammar -/

namespace LineGrammar

variable {t : Text}

/-- None or more blanks. -/
def blanks : Language Char := {t | ∀ c ∈ t, isBlank c = true}

/-- One or more blanks. -/
def gap : Language Char := {t | t ≠ [] ∧ ∀ c ∈ t, isBlank c = true}

/-- One of the words `ws`. -/
def oneOf (ws : List Text) : Language Char := {w | w ∈ ws}

/-- One of the words `ws` and a gap, or nothing. -/
def modifier (ws : List Text) : Language Char := 1 + oneOf ws * gap

/-- What separates `function` from the name. -/
def separator : Language Char := gap + blanks * {['*']} * blanks

/-- What stands in front of the name of a class. -/
def classFront : Language Char :=
  blanks * modifier ["export".toList] * modifier ["default".toList] *
    modifier ["abstract".toList] * {"class".toList} * gap

/-- What stands in front of the name of a function. -/
def functionFront : Language Char :=
  blanks * modifier ["export".toList] * modifier ["default".toList] *
    modifier ["async".toList] * {"function".toList} * separator

/-- What stands in front of the name of a method. -/
def methodFront : Language Char :=
  blanks * modifier ["public".toList, "private".toList, "protected".toList] *
    modifier ["static".toList] * modifier ["async".toList]

/-- What stands behind the name of a method. -/
def methodBack : Language Char := blanks * {['(']} * ⊤

/-- Lines that end in a semicolon, blanks aside. -/
def statement : Language Char := ⊤ * {[';']} * blanks

/-- A word and then a text of the language `l`. -/
theorem mem_word_mul_iff {w : Text} {l : Language Char} :
    t ∈ ({w} : Language Char) * l ↔ ∃ s ∈ l, t = w ++ s := by
  constructor
  · rintro ⟨-, rfl, s, hs, rfl⟩
    exact ⟨s, hs, rfl⟩
  · rintro ⟨s, hs, rfl⟩
    exact Language.append_mem_mul rfl hs

/-- A modifier is left out, or there is a gap behind it. -/
theorem mem_modifier_iff {ws : List Text} :
    t ∈ modifier ws ↔ t = [] ∨ ∃ w ∈ ws, ∃ g ∈ gap, t = w ++ g := by
  refine or_congr Iff.rfl ⟨?_, ?_⟩
  · rintro ⟨w, hw, g, hg, rfl⟩
    exact ⟨w, hw, g, hg, rfl⟩
  · rintro ⟨w, hw, g, hg, rfl⟩
    exact Language.append_mem_mul hw hg

/-- Between `function` and the name there is a gap, or a star among blanks. -/
theorem mem_separator_iff :
    t ∈ separator ↔ t ∈ gap ∨ ∃ b ∈ blanks, ∃ b' ∈ blanks, t = b ++ '*' :: b' := by
  refine or_congr Iff.rfl ⟨?_, ?_⟩
  · rintro ⟨-, ⟨b, hb, -, rfl, rfl⟩, b', hb', rfl⟩
    exact ⟨b, hb, b', hb', List.append_assoc ..⟩
  · rintro ⟨b, hb, b', hb', rfl⟩
    exact ⟨_, ⟨b, hb, _, rfl, rfl⟩, b', hb', List.append_assoc ..⟩

/-- Behind the name of a method a bracket opens, blanks aside. -/
theorem mem_methodBack_iff : t ∈ methodBack ↔ ∃ b ∈ blanks, ∃ u, t = b ++ '(' :: u := by
  constructor
  · rintro ⟨-, ⟨b, hb, -, rfl, rfl⟩, u, -, rfl⟩
    exact ⟨b, hb, u, List.append_assoc ..⟩
  · rintro ⟨b, hb, u, rfl⟩
    exact ⟨_, ⟨b, hb, _, rfl, rfl⟩, u, trivial, List.append_assoc ..⟩

/-- A statement ends in a semicolon. -/
theorem mem_statement_iff : t ∈ statement ↔ ∃ u, ∃ b ∈ blanks, t = u ++ ';' :: b := by
  constructor
  · rintro ⟨-, ⟨u, -, -, rfl, rfl⟩, b, hb, rfl⟩
    exact ⟨u, b, hb, List.append_assoc ..⟩
  · rintro ⟨u, b, hb, rfl⟩
    exact ⟨_, ⟨u, trivial, _, rfl, rfl⟩, b, hb, List.append_assoc ..⟩

end LineGrammar

/-- A word is a non-empty run of identifier characters. -/
def IsWord (w : Text) : Prop := w ≠ [] ∧ ∀ c ∈ w, isIdent c = true

instance (w : Text) : Decidable (IsWord w) :=
  @instDecidableAnd _ _ inferInstance (List.decidableBAll (isIdent · = true) w)

/-- No identifier character comes first in the text. -/
def EndsWord (t : Text) : Prop := ∀ x, t.head? = some x → isIdent x = false

/-- The line bears the name between a text of `front` and one of `back`, and the name does not go
on into the latter. -/
def Naming.Fits (front back : Language Char) (line : Text) (n : Naming) : Prop :=
  ∃ pre ∈ front, ∃ post ∈ back, line = pre ++ (n.name.toList ++ post) ∧ pre.length = n.before ∧
    IsName n.name ∧ EndsWord post

/-! ### Blanks and words -/

/-- No letter of a name is blank. -/
theorem isBlank_of_isIdent (h : isIdent c = true) : isBlank c = false := by
  rw [← Bool.not_eq_true]
  intro hc
  rw [isIdent_of_isBlank hc] at h
  exact Bool.false_ne_true h

/-- What is trimmed off is blank. -/
theorem LineGrammar.exists_blanks_trimLeft (t : Text) : ∃ b ∈ blanks, t = b ++ t.trimLeft :=
  ⟨t.takeWhile isBlank, fun _ hc => List.mem_takeWhile_imp hc,
    List.takeWhile_append_dropWhile.symm⟩

/-- All blanks are trimmed off, and nothing else. -/
theorem LineGrammar.trimLeft_append_cons {b u : Text} (hb : b ∈ blanks) (hc : isBlank c = false) :
    Text.trimLeft (b ++ c :: u) = c :: u := by
  rw [Text.trimLeft, List.dropWhile_append_of_pos hb, List.dropWhile_cons_of_neg (by simp [hc])]

/-- A gap ends the word before it. -/
theorem LineGrammar.endsWord_gap {g : Text} (hg : g ∈ gap) (u : Text) : EndsWord (g ++ u) := by
  intro x hx
  cases g with
  | nil => exact absurd rfl hg.1
  | cons c g =>
    obtain rfl := Option.some.inj hx
    exact isIdent_of_isBlank (hg.2 c List.mem_cons_self)

/-- So does a separator. -/
theorem LineGrammar.endsWord_separator {s : Text} (hs : s ∈ separator) (u : Text) :
    EndsWord (s ++ u) := by
  rcases mem_separator_iff.mp hs with hs | ⟨b, hb, b', -, rfl⟩
  · exact endsWord_gap hs u
  · intro x hx
    cases b with
    | nil =>
      obtain rfl := Option.some.inj hx
      decide
    | cons c b =>
      obtain rfl := Option.some.inj hx
      exact isIdent_of_isBlank (hb c List.mem_cons_self)

/-- A word that ends is dropped as a whole. -/
theorem IsWord.dropWhile {w rest : Text} (hw : IsWord w) (hrest : EndsWord rest) :
    (w ++ rest).dropWhile isIdent = rest := by
  have hboth := List.takeWhile_append_dropWhile (p := isIdent) (l := w ++ rest)
  rw [takeWhile_isIdent hw.2 hrest] at hboth
  exact List.append_cancel_left hboth

/-- A word starts with a letter. -/
theorem IsWord.exists_cons {w : Text} (hw : IsWord w) (u : Text) :
    ∃ c v, w ++ u = c :: v ∧ isIdent c = true := by
  cases w with
  | nil => exact absurd rfl hw.1
  | cons c w => exact ⟨c, w ++ u, rfl, hw.2 c List.mem_cons_self⟩

/-- Letters at the start of a text make a word. -/
theorem exists_isWord (hc : isIdent c = true) (u : Text) :
    ∃ w, IsWord w ∧ c :: u = w ++ (c :: u).dropWhile isIdent :=
  ⟨(c :: u).takeWhile isIdent, ⟨by simp [hc], fun _ h => List.mem_takeWhile_imp h⟩,
    List.takeWhile_append_dropWhile.symm⟩

/-- Behind its letters a word has ended. -/
theorem endsWord_dropWhile (t : Text) : EndsWord (t.dropWhile isIdent) := by
  intro x hx
  have := List.head?_dropWhile_not isIdent t
  rw [hx] at this
  simpa using this

/-! ### What the readers pass over -/

namespace Reader

variable {next r : Reader} {back front l : Language Char} {rest t w : Text} {firsts : List Text}

open LineGrammar

/-- The reader fits only where an identifier character comes first. -/
def StartsAtWord (r : Reader) : Prop :=
  ∀ t rest, r t = some rest → ∃ c u, t = c :: u ∧ isIdent c = true

/-- The reader passes over a text of `l` and goes on as `next`. -/
def Passes (r next : Reader) (l : Language Char) : Prop :=
  ∀ t rest, r t = some rest ↔ ∃ a ∈ l, ∃ u, t = a ++ u ∧ next u = some rest

/-- The reader finds the names between a text of `front` and one of `back`. -/
def Reads (r : Reader) (front back : Language Char) : Prop :=
  ∀ t rest, r t = some rest ↔ ∃ pre ∈ front, t = pre ++ rest ∧
    ∃ w post, rest = w ++ post ∧ IsWord w ∧ EndsWord post ∧ post ∈ back

/-- A reader that passes over a part reads that part and what comes next. -/
theorem Passes.reads (hr : r.Passes next l) (hn : next.Reads front back) :
    r.Reads (l * front) back := by
  intro t rest
  rw [hr t rest]
  constructor
  · rintro ⟨a, ha, u, rfl, h⟩
    obtain ⟨pre, hpre, rfl, hname⟩ := (hn u rest).mp h
    exact ⟨a ++ pre, Language.append_mem_mul ha hpre, by rw [List.append_assoc], hname⟩
  · rintro ⟨-, ⟨a, ha, b, hb, rfl⟩, rfl, hname⟩
    exact ⟨a, ha, b ++ rest, List.append_assoc .., (hn _ rest).mpr ⟨b, hb, rfl, hname⟩⟩

/-- A name starts at once. -/
theorem startsAtWord_name : StartsAtWord name := by
  intro t rest h
  unfold name at h
  split at h
  · split_ifs at h with hc
    exact ⟨_, _, rfl, hc⟩
  · simp at h

/-- A name is found where there is a letter. -/
theorem name_eq_some_iff :
    name t = some rest ↔ t = rest ∧ ∃ c u, rest = c :: u ∧ isIdent c = true := by
  constructor
  · intro h
    obtain ⟨c, u, rfl, hc⟩ := startsAtWord_name t rest h
    simp only [name, hc, if_true] at h
    obtain rfl := Option.some.inj h
    exact ⟨rfl, c, u, rfl, hc⟩
  · rintro ⟨rfl, c, u, rfl, hc⟩
    simp only [name, hc, if_true]

/-- A reader that stops at once, where what is behind the name is in `back`. -/
theorem reads_of_name
    (hr : ∀ t rest, r t = some rest ↔ name t = some rest ∧ t.dropWhile isIdent ∈ back) :
    r.Reads 1 back := by
  intro t rest
  rw [hr, name_eq_some_iff]
  constructor
  · rintro ⟨⟨rfl, c, u, rfl, hc⟩, hback⟩
    obtain ⟨w, hw, hsplit⟩ := exists_isWord hc u
    exact ⟨[], rfl, rfl, w, _, hsplit, hw, endsWord_dropWhile _, hback⟩
  · rintro ⟨-, rfl, rfl, w, post, rfl, hw, hends, hpost⟩
    refine ⟨⟨rfl, hw.exists_cons post⟩, ?_⟩
    rwa [hw.dropWhile hends]

/-- So a name needs nothing before it, and anything may follow. -/
theorem reads_name : name.Reads 1 ⊤ :=
  reads_of_name fun _ _ => (and_iff_left trivial).symm

/-- A called name is a name before a bracket. -/
theorem calledName_eq_some_iff :
    calledName t = some rest ↔ name t = some rest ∧ t.dropWhile isIdent ∈ methodBack := by
  rw [mem_methodBack_iff]
  unfold calledName
  split
  · rename_i after hafter
    obtain ⟨b, hb, hsplit⟩ := exists_blanks_trimLeft (t.dropWhile isIdent)
    rw [hafter] at hsplit
    exact ⟨fun h => ⟨h, b, hb, after, hsplit⟩, And.left⟩
  · rename_i hnot
    refine ⟨fun h => by simp at h, ?_⟩
    rintro ⟨-, b, hb, after, hsplit⟩
    refine absurd ?_ (hnot after)
    rw [hsplit]
    exact trimLeft_append_cons hb (by decide)

/-- Blanks are passed over before anything that starts at a word. -/
theorem passes_blanks (hn : next.StartsAtWord) :
    (Reader.blanks next).Passes next LineGrammar.blanks := by
  intro t rest
  constructor
  · intro h
    obtain ⟨b, hb, hsplit⟩ := exists_blanks_trimLeft t
    exact ⟨b, hb, _, hsplit, h⟩
  · rintro ⟨b, hb, u, rfl, h⟩
    obtain ⟨c, v, rfl, hc⟩ := hn u rest h
    rwa [Reader.blanks, trimLeft_append_cons hb (isBlank_of_isIdent hc)]

/-- Passing over a word and what follows it. -/
theorem passes_word_mul_iff :
    r.Passes next ({w} * l) ↔ ∀ t rest, r t = some rest ↔
      ∃ s ∈ l, ∃ u, t = w ++ (s ++ u) ∧ next u = some rest := by
  refine forall_congr' fun t => forall_congr' fun rest => iff_congr Iff.rfl ⟨?_, ?_⟩
  · rintro ⟨a, ha, u, rfl, hu⟩
    obtain ⟨s, hs, rfl⟩ := mem_word_mul_iff.mp ha
    exact ⟨s, hs, u, List.append_assoc .., hu⟩
  · rintro ⟨s, hs, u, rfl, hu⟩
    exact ⟨w ++ s, mem_word_mul_iff.mpr ⟨s, hs, rfl⟩, u, (List.append_assoc ..).symm, hu⟩

/-- A word is passed over with the gap behind it. -/
theorem passes_word (hn : next.StartsAtWord) (w : Text) :
    (word w next).Passes next ({w} * gap) := by
  rw [passes_word_mul_iff]
  intro t rest
  constructor
  · intro h
    unfold word at h
    split at h
    · rename_i c v hv
      split_ifs at h with hc
      obtain ⟨b, hb, hsplit⟩ := exists_blanks_trimLeft v
      refine ⟨c :: b, ⟨List.cons_ne_nil c b, List.forall_mem_cons.mpr ⟨hc, hb⟩⟩, _, ?_, h⟩
      rw [List.cons_append, ← hsplit]
      exact (List.isPrefixOf?_eq_some_iff_append_eq.mp hv).symm
    · simp at h
  · rintro ⟨g, ⟨hne, hg⟩, u, rfl, h⟩
    obtain ⟨c, b, rfl⟩ := List.exists_cons_of_ne_nil hne
    obtain ⟨hc, hb⟩ := List.forall_mem_cons.mp hg
    obtain ⟨x, v, rfl, hx⟩ := hn u rest h
    have hpre : w.isPrefixOf? (w ++ (c :: b ++ x :: v)) = some (c :: (b ++ x :: v)) :=
      List.isPrefixOf?_eq_some_iff_append_eq.mpr rfl
    simp only [word, hpre, hc, if_true]
    rwa [trimLeft_append_cons hb (isBlank_of_isIdent hx)]

/-- `function` is found only with a separator behind it. -/
theorem exists_separator_of_functionWord (hn : next.StartsAtWord)
    (h : functionWord next t = some rest) :
    ∃ s ∈ separator, ∃ u, t = "function".toList ++ (s ++ u) ∧ next u = some rest := by
  unfold functionWord at h
  split at h
  · simp at h
  · rename_i v hv
    obtain rfl := List.isPrefixOf?_eq_some_iff_append_eq.mp hv
    obtain ⟨b, hb, hsplit⟩ := exists_blanks_trimLeft v
    split at h
    · rename_i after hafter
      obtain ⟨b', hb', hsplit'⟩ := exists_blanks_trimLeft after
      refine ⟨_, mem_separator_iff.mpr (Or.inr ⟨b, hb, b', hb', rfl⟩), _, ?_, h⟩
      rw [List.append_assoc, List.cons_append, ← hsplit', ← hafter, ← hsplit]
    · split_ifs at h with hblank
      refine ⟨b, Or.inl ⟨?_, hb⟩, _, by rw [← hsplit], h⟩
      rintro rfl
      obtain ⟨c, u, hu, hc⟩ := hn _ rest h
      rw [hsplit, List.nil_append, hu] at hblank
      simp [isBlank_of_isIdent hc] at hblank

/-- And wherever there is one. -/
theorem functionWord_append (hn : next.StartsAtWord) {s u : Text} (hs : s ∈ separator)
    (h : next u = some rest) : functionWord next ("function".toList ++ (s ++ u)) = some rest := by
  obtain ⟨x, v, rfl, hx⟩ := hn u rest h
  have hpre : "function".toList.isPrefixOf? ("function".toList ++ (s ++ x :: v)) =
      some (s ++ x :: v) := List.isPrefixOf?_eq_some_iff_append_eq.mpr rfl
  rw [functionWord, hpre]
  rcases mem_separator_iff.mp hs with ⟨hne, hb⟩ | ⟨b, hb, b', hb', rfl⟩
  · have htrim : Text.trimLeft (s ++ x :: v) = x :: v :=
      trimLeft_append_cons hb (isBlank_of_isIdent hx)
    obtain ⟨c, b, rfl⟩ := List.exists_cons_of_ne_nil hne
    simp only [htrim]
    split
    · rename_i hstar
      obtain rfl := (List.cons.inj hstar).1
      exact absurd hx (by decide)
    · simpa [hb c List.mem_cons_self] using h
  · have htrim : Text.trimLeft ((b ++ '*' :: b') ++ x :: v) = '*' :: (b' ++ x :: v) := by
      rw [List.append_assoc]
      exact trimLeft_append_cons hb (by decide)
    simp only [htrim]
    rwa [trimLeft_append_cons hb' (isBlank_of_isIdent hx)]

/-- So `function` is passed over with its separator. -/
theorem passes_functionWord (hn : next.StartsAtWord) :
    (functionWord next).Passes next ({"function".toList} * separator) := by
  rw [passes_word_mul_iff]
  refine fun t rest => ⟨exists_separator_of_functionWord hn, ?_⟩
  rintro ⟨s, hs, u, rfl, h⟩
  exact functionWord_append hn hs h

/-! ### Parts of a line behind its first blanks -/

/-- The reader finds the names between `front` and `back`, starts at a word, and does not fit where
a word other than `firsts` is followed by another word. -/
structure Fragment (r : Reader) (firsts : List Text) (front back : Language Char) : Prop where
  reads : r.Reads front back
  starts : r.StartsAtWord
  shuns : ∀ w, IsWord w → w ∉ firsts → ∀ g ∈ gap, ∀ c u, isIdent c = true →
    r (w ++ (g ++ c :: u)) = none

/-- A called name fits behind no other word. -/
theorem fragment_calledName : calledName.Fragment [] 1 methodBack where
  reads := reads_of_name fun _ _ => calledName_eq_some_iff
  starts t rest h := startsAtWord_name t rest (calledName_eq_some_iff.mp h).1
  shuns := by
    intro w hw _ g hg c u hc
    rw [Option.eq_none_iff_forall_ne_some]
    intro rest h
    obtain ⟨b, hb, v, hv⟩ := mem_methodBack_iff.mp (calledName_eq_some_iff.mp h).2
    rw [hw.dropWhile (endsWord_gap hg _)] at hv
    have htrim := congrArg Text.trimLeft hv
    rw [trimLeft_append_cons hg.2 (isBlank_of_isIdent hc), trimLeft_append_cons hb (by decide)]
      at htrim
    obtain rfl := (List.cons.inj htrim).1
    exact absurd hc (by decide)

/-- A reader that begins with `w` fits only where `w` is the first word. -/
theorem Passes.takeWhile_eq (hr : r.Passes next ({w} * l)) (hl : ∀ s ∈ l, ∀ u, EndsWord (s ++ u))
    (hw : IsWord w) (h : r t = some rest) : t.takeWhile isIdent = w := by
  obtain ⟨s, hs, u, rfl, -⟩ := (passes_word_mul_iff.mp hr t rest).mp h
  exact takeWhile_isIdent hw.2 (hl s hs u)

/-- A word that is passed over is the first one of a fragment. -/
theorem Passes.fragment (hr : r.Passes next ({w} * l)) (hl : ∀ s ∈ l, ∀ u, EndsWord (s ++ u))
    (hw : IsWord w) (hn : next.Reads front back) : r.Fragment [w] ({w} * l * front) back where
  reads := hr.reads hn
  starts t rest h := by
    obtain ⟨s, -, u, rfl, -⟩ := (passes_word_mul_iff.mp hr t rest).mp h
    exact hw.exists_cons _
  shuns := by
    intro w' hw' hne g hg c u _
    rw [Option.eq_none_iff_forall_ne_some]
    intro rest h
    have hfirst := hr.takeWhile_eq hl hw h
    rw [takeWhile_isIdent hw'.2 (endsWord_gap hg _)] at hfirst
    exact hne (List.mem_singleton.mpr hfirst)

/-- A fragment that starts with a word and a gap. -/
theorem fragment_word (hs : next.StartsAtWord) (hn : next.Reads front back) (hw : IsWord w) :
    (word w next).Fragment [w] ({w} * gap * front) back :=
  (passes_word hs w).fragment (fun _ h => endsWord_gap h) hw hn

/-- A fragment that starts with `function`. -/
theorem fragment_functionWord (hs : next.StartsAtWord) (hn : next.Reads front back) :
    (functionWord next).Fragment ["function".toList] ({"function".toList} * separator * front)
      back :=
  (passes_functionWord hs).fragment (fun _ h => endsWord_separator h) (by decide) hn

/-- At most one of several words comes first, so their order does not matter. -/
theorem findSome?_word (hn : next.StartsAtWord) {ws : List Text} (hws : ∀ w ∈ ws, IsWord w)
    (hw : w ∈ ws) (h : word w next t = some rest) :
    (ws.findSome? fun w => word w next t) = some rest := by
  have hfirst : ∀ w' ∈ ws, ∀ rest', word w' next t = some rest' → t.takeWhile isIdent = w' :=
    fun w' hw' _ => (passes_word hn w').takeWhile_eq (fun _ => endsWord_gap) (hws w' hw')
  cases hfound : ws.findSome? fun w => word w next t with
  | none =>
    rw [List.findSome?_eq_none_iff.mp hfound w hw] at h
    simp at h
  | some rest' =>
    obtain ⟨w', hw', h'⟩ := List.exists_of_findSome?_eq_some hfound
    have hsame : w' = w := (hfirst w' hw' rest' h').symm.trans (hfirst w hw rest h)
    rw [← h', hsame, h]

/-- **An optional word may be tried first.**  If the line fits with it, it does not fit without. -/
theorem Fragment.passes_optional {ws : List Text} (hn : next.Fragment firsts front back)
    (hws : ∀ w ∈ ws, IsWord w ∧ w ∉ firsts) : (optional ws next).Passes next (modifier ws) := by
  have hword : ∀ w t rest, word w next t = some rest ↔
      ∃ g ∈ gap, ∃ u, t = w ++ (g ++ u) ∧ next u = some rest := fun w =>
    passes_word_mul_iff.mp (passes_word hn.starts w)
  intro t rest
  simp only [mem_modifier_iff]
  constructor
  · intro h
    rcases Option.or_eq_some_iff.mp h with h | ⟨-, h⟩
    · obtain ⟨w, hw, h'⟩ := List.exists_of_findSome?_eq_some h
      obtain ⟨g, hg, u, ht, hu⟩ := (hword w t rest).mp h'
      exact ⟨_, Or.inr ⟨w, hw, g, hg, rfl⟩, u, ht.trans (List.append_assoc ..).symm, hu⟩
    · exact ⟨[], Or.inl rfl, t, rfl, h⟩
  · rintro ⟨-, rfl | ⟨w, hw, g, hg, rfl⟩, u, rfl, h⟩
    · refine Option.or_eq_some_iff.mpr (Or.inr ⟨?_, h⟩)
      rw [List.findSome?_eq_none_iff]
      intro w hw
      rw [Option.eq_none_iff_forall_ne_some]
      intro rest' h'
      obtain ⟨g, hg, v, hsplit, hv⟩ := (hword w _ rest').mp h'
      obtain ⟨c, v, rfl, hc⟩ := hn.starts v rest' hv
      have hnone := hn.shuns w (hws w hw).1 (hws w hw).2 g hg c v hc
      rw [← hsplit] at hnone
      exact Option.some_ne_none rest (h.symm.trans hnone)
    · refine Option.or_eq_some_iff.mpr (Or.inl ?_)
      refine findSome?_word hn.starts (fun w hw => (hws w hw).1) hw ?_
      exact (hword w _ rest).mpr ⟨g, hg, u, List.append_assoc .., h⟩

/-- Words may be put before a fragment that starts with other ones. -/
theorem Fragment.optional (hn : next.Fragment firsts front back) (ws : List Text)
    (hws : ∀ w ∈ ws, IsWord w ∧ w ∉ firsts) :
    (optional ws next).Fragment (ws ++ firsts) (modifier ws * front) back where
  reads := (hn.passes_optional hws).reads hn.reads
  starts t rest h := by
    obtain ⟨a, ha, u, rfl, hu⟩ := (hn.passes_optional hws t rest).mp h
    rcases mem_modifier_iff.mp ha with rfl | ⟨w, hw, g, -, rfl⟩
    · exact hn.starts u rest hu
    · rw [List.append_assoc]
      exact (hws w hw).1.exists_cons _
  shuns := by
    intro w hw hne g hg c u hc
    rw [List.mem_append, not_or] at hne
    rw [Option.eq_none_iff_forall_ne_some]
    intro rest h
    obtain ⟨a, ha, v, hsplit, hv⟩ := (hn.passes_optional hws _ rest).mp h
    rcases mem_modifier_iff.mp ha with rfl | ⟨w', hw', g', hg', rfl⟩
    · rw [List.nil_append] at hsplit
      rw [← hsplit, hn.shuns w hw hne.2 g hg c u hc] at hv
      simp at hv
    · have hfirst := congrArg (List.takeWhile isIdent) hsplit
      rw [List.append_assoc, takeWhile_isIdent hw.2 (endsWord_gap hg _),
        takeWhile_isIdent (hws w' hw').1.2 (endsWord_gap hg' _)] at hfirst
      exact hne.1 (hfirst ▸ hw')

/-- A fragment may be indented. -/
theorem Fragment.reads_blanks (hr : r.Fragment firsts front back) :
    (Reader.blanks r).Reads (LineGrammar.blanks * front) back :=
  (passes_blanks hr.starts).reads hr.reads

/-- The reader of class lines reads the grammar of class lines. -/
theorem reads_classLine : classLine.Reads classFront ⊤ := by
  have hclass : (word "class".toList name).Fragment _ _ _ :=
    fragment_word startsAtWord_name reads_name (by decide)
  have habstract := hclass.optional ["abstract".toList] (by decide)
  have hdefault := habstract.optional ["default".toList] (by decide)
  have hexport := hdefault.optional ["export".toList] (by decide)
  simpa only [classLine, classFront, mul_assoc, mul_one] using hexport.reads_blanks

/-- That of functions reads theirs. -/
theorem reads_functionLine : functionLine.Reads functionFront ⊤ := by
  have hfunction := fragment_functionWord startsAtWord_name reads_name
  have hasync := hfunction.optional ["async".toList] (by decide)
  have hdefault := hasync.optional ["default".toList] (by decide)
  have hexport := hdefault.optional ["export".toList] (by decide)
  simpa only [functionLine, functionFront, mul_assoc, mul_one] using hexport.reads_blanks

/-- That of methods reads theirs. -/
theorem reads_methodLine : methodLine.Reads methodFront methodBack := by
  have hasync := fragment_calledName.optional ["async".toList] (by decide)
  have hstatic := hasync.optional ["static".toList] (by decide)
  have haccess := hstatic.optional ["public".toList, "private".toList, "protected".toList]
    (by decide)
  simpa only [methodLine, methodFront, mul_assoc, mul_one] using haccess.reads_blanks

/-- **A reader finds the one naming that fits the grammar**, if there is one. -/
theorem Reads.ofReader_eq_some_iff (hr : r.Reads front back) {line : Text} {n : Naming} :
    Naming.ofReader r line = some n ↔ n.Fits front back line := by
  rw [Naming.ofReader, Option.map_eq_some_iff]
  constructor
  · rintro ⟨rest, h, rfl⟩
    obtain ⟨pre, hpre, rfl, w, post, rfl, hw, hends, hpost⟩ := (hr line rest).mp h
    refine ⟨pre, hpre, post, hpost, ?_, ?_, ?_, hends⟩
    · rw [takeWhile_isIdent hw.2 hends, String.toList_ofList]
    · simp
    · rw [takeWhile_isIdent hw.2 hends, IsName, String.toList_ofList]
      exact hw
  · rintro ⟨pre, hpre, post, hpost, rfl, hbefore, hname, hends⟩
    refine ⟨n.name.toList ++ post, ?_, ?_⟩
    · exact (hr _ _).mpr ⟨pre, hpre, rfl, _, post, rfl, hname, hends, hpost⟩
    · rw [takeWhile_isIdent hname.2 hends, String.ofList_toList]
      simp [hbefore]

/-- **A line bears one name at most** between texts that a reader reads. -/
theorem Reads.unique (hr : r.Reads front back) {line : Text} {m n : Naming}
    (hm : m.Fits front back line) (hn : n.Fits front back line) : m = n :=
  Option.some.inj ((hr.ofReader_eq_some_iff.mpr hm).symm.trans (hr.ofReader_eq_some_iff.mpr hn))

end Reader

/-! ### The kinds of lines -/

/-- Statements are told by their grammar. -/
theorem isStatement_iff {line : Text} : isStatement line = true ↔ line ∈ LineGrammar.statement := by
  have hlast : line.trimRight.getLast? = (Text.trimLeft line.reverse).head? :=
    List.getLast?_reverse
  rw [isStatement, beq_iff_eq, hlast, LineGrammar.mem_statement_iff]
  constructor
  · intro h
    obtain ⟨b, hb, hsplit⟩ := LineGrammar.exists_blanks_trimLeft line.reverse
    obtain ⟨u, hu⟩ := List.head?_eq_some_iff.mp h
    refine ⟨u.reverse, b.reverse, fun c hc => hb c (List.mem_reverse.mp hc), ?_⟩
    rw [hu] at hsplit
    rw [← List.reverse_reverse line, hsplit]
    simp
  · rintro ⟨u, b, hb, rfl⟩
    have hrev : (u ++ ';' :: b).reverse = b.reverse ++ ';' :: u.reverse := by simp
    rw [hrev, LineGrammar.trimLeft_append_cons (fun c hc => hb c (List.mem_reverse.mp hc))
      (by decide)]
    rfl

/-- A line of blanks bears no name. -/
theorem Naming.Fits.notMem_blanks {line : Text} {front back : Language Char} {n : Naming}
    (h : n.Fits front back line) : line ∉ LineGrammar.blanks := by
  intro hline
  obtain ⟨pre, -, post, -, rfl, -, ⟨hne, hname⟩, -⟩ := h
  obtain ⟨c, hc⟩ := List.exists_mem_of_ne_nil _ hne
  have hident := isIdent_of_isBlank (hline c (by simp [hc]))
  rw [hname c hc] at hident
  exact Bool.false_ne_true hident.symm

namespace LineGrammar

/-- A line that declares a class. -/
def IsClassLine (line : Text) : Prop := ∃ n : Naming, n.Fits classFront ⊤ line

/-- A line that declares a function, if it does not declare a class. -/
def IsFunctionLine (line : Text) : Prop := ∃ n : Naming, n.Fits functionFront ⊤ line

/-- A class line is one in which the reader finds a name. -/
theorem isClassLine_iff {line : Text} :
    IsClassLine line ↔ (Naming.ofReader .classLine line).isSome = true := by
  simp only [IsClassLine, Option.isSome_iff_exists, Reader.reads_classLine.ofReader_eq_some_iff]

/-- And likewise a function line. -/
theorem isFunctionLine_iff {line : Text} :
    IsFunctionLine line ↔ (Naming.ofReader .functionLine line).isSome = true := by
  simp only [IsFunctionLine, Option.isSome_iff_exists,
    Reader.reads_functionLine.ofReader_eq_some_iff]

end LineGrammar

namespace LineKind

variable {line : Text} {n : Naming}

open LineGrammar

/-- Class lines are told by their grammar alone. -/
theorem ofLine_eq_classLine_iff : ofLine line = .classLine n ↔ n.Fits classFront ⊤ line := by
  rw [← Reader.reads_classLine.ofReader_eq_some_iff]
  grind [ofLine]

/-- Function lines are those that fit and are no class lines. -/
theorem ofLine_eq_functionLine_iff :
    ofLine line = .functionLine n ↔ ¬ IsClassLine line ∧ n.Fits functionFront ⊤ line := by
  rw [isClassLine_iff, ← Reader.reads_functionLine.ofReader_eq_some_iff]
  grind [ofLine]

/-- A method is neither called like a keyword nor part of a statement. -/
theorem method?_eq_some_iff :
    method? line = some n ↔ n.Fits methodFront methodBack line ∧ n.name ∉ nonMethodWords ∧
      line ∉ statement := by
  rw [← Reader.reads_methodLine.ofReader_eq_some_iff, ← isStatement_iff]
  simp [method?, Option.filter_eq_some_iff]

/-- Method lines come last of the three. -/
theorem ofLine_eq_methodLine_iff :
    ofLine line = .methodLine n ↔ ¬ IsClassLine line ∧ ¬ IsFunctionLine line ∧
      n.Fits methodFront methodBack line ∧ n.name ∉ nonMethodWords ∧ line ∉ statement := by
  rw [isClassLine_iff, isFunctionLine_iff, ← method?_eq_some_iff]
  grind [ofLine]

/-- Blank lines hold blanks only. -/
theorem ofLine_eq_blankLine_iff : ofLine line = .blankLine ↔ line ∈ blanks := by
  have hblank : isBlankLine line = true ↔ line ∈ blanks := List.all_eq_true
  rw [← hblank]
  constructor
  · grind [ofLine]
  · intro h
    have hclass : ¬ IsClassLine line := fun ⟨_, hn⟩ => hn.notMem_blanks (hblank.mp h)
    have hfunction : ¬ IsFunctionLine line := fun ⟨_, hn⟩ => hn.notMem_blanks (hblank.mp h)
    have hmethod : method? line = none := Option.eq_none_iff_forall_ne_some.mpr fun _ hn =>
      (method?_eq_some_iff.mp hn).1.notMem_blanks (hblank.mp h)
    rw [isClassLine_iff] at hclass
    rw [isFunctionLine_iff] at hfunction
    grind [ofLine]

end LineKind

end SymbolAtlas
