import Mathlib.Data.List.Basic
import SymbolAtlas.Lineage
import SymbolAtlas.Proofs.Outline

/-!
# Ids tell their file

An id is made of plain text: the file, the name, for a member the id of its class, and the line,
with `::`, `@` and possibly a `#n` between and behind them.  A file id may hold these signs too.
Still no text is an id of two files (`IsIdOf.unique`).

Reading goes from the right.  What follows the last character that is no identifier character is
determined by the text (`append_cons_inj`), so the suffix and the line come off first
(`Numbered.unique`).  What is left ends in `::` and a name for a declaration without container, in
the number of its class for a member, and in `<file>` for a file.  In the case of two members the
text left is `f::m@f`, with the file at both ends, and a longer file id in its place would have to
find its `::` inside the name `m` (`eq_of_bordered`).
-/

namespace SymbolAtlas

/-! ### The shapes of ids -/

/-- `x` is the id itself or a numbered variant of it. -/
def IsVariant (id x : String) : Prop := x = id ∨ ∃ n, x = withSuffix id n

/-- The ids of the declarations of a file that have no container. -/
def IsTopId (fileId x : String) : Prop :=
  ∃ name line, IsName name ∧ (0 : Int) ≤ line ∧ IsVariant (naturalId fileId name line none) x

/-- The ids of the declarations of a file inside of a class. -/
def IsMemberId (fileId x : String) : Prop :=
  ∃ name line container, IsName name ∧ (0 : Int) ≤ line ∧ IsTopId fileId container ∧
    IsVariant (naturalId fileId name line (some container)) x

/-- The ids of the symbols of a file. -/
def IsIdOf (fileId x : String) : Prop :=
  x = fileSymbolId fileId ∨ IsTopId fileId x ∨ IsMemberId fileId x

/-! ### Runs of identifier characters -/

/-- A text of identifier characters only. -/
def IsRun (t : Text) : Prop := ∀ c ∈ t, isIdent c = true

/-- Numbers are written in word characters. -/
theorem isRun_digits (n : Nat) : IsRun (toString n).toList := by
  intro c hc
  rw [Nat.toString_eq_repr, Nat.toList_repr] at hc
  have hd := Nat.isDigit_of_mem_toDigits (by decide) (by decide) hc
  simp [isIdent, Char.isAlphanum, hd]

/-- A number is known by its digits. -/
theorem digits_inj {m n : Nat} (h : (toString m).toList = (toString n).toList) : m = n := by
  rw [Nat.toString_eq_repr, Nat.toString_eq_repr, Nat.toList_repr, Nat.toList_repr] at h
  rw [← Nat.ofDigitChars_ten_toDigits (n := m), h, Nat.ofDigitChars_ten_toDigits]

theorem isRun_line {line : Int} (h : 0 ≤ line) : IsRun (toString line).toList := by
  obtain ⟨n, rfl⟩ := Int.eq_ofNat_of_zero_le h
  exact isRun_digits n

/-- **The last sign that is no identifier character** is the same however a text is cut there. -/
theorem append_cons_inj {a a' run run' : Text} {c c' : Char} (hc : isIdent c = false)
    (hc' : isIdent c' = false) (hr : IsRun run) (hr' : IsRun run')
    (h : a ++ c :: run = a' ++ c' :: run') : a = a' ∧ c = c' ∧ run = run' := by
  -- the cut that lies further left would have the other sign in its run
  have key : ∀ {b b' r r' : Text} {d d' : Char}, isIdent d' = false → IsRun r →
      b ++ d :: r = b' ++ d' :: r' → ∀ e es, b' ≠ b ++ e :: es := by
    rintro b b' r r' d d' hd' hr h e es rfl
    rw [List.append_assoc, List.append_cancel_left_eq, List.cons_append, List.cons.injEq] at h
    have := hr d' (h.2 ▸ List.mem_append_right es (List.mem_cons_self ..))
    rw [hd'] at this
    exact Bool.false_ne_true this
  rcases List.append_eq_append_iff.mp h with ⟨es, rfl, hes⟩ | ⟨es, rfl, hes⟩
  · cases es with
    | nil => simpa using hes
    | cons e es => exact absurd rfl (key hc' hr h e es)
  · cases es with
    | nil => simpa [eq_comm] using hes
    | cons e es => exact absurd rfl (key hc hr' h.symm e es)

/-! ### Taking the numbers off -/

/-- `x` is `u` with a line number and possibly a suffix number behind it. -/
def Numbered (u x : Text) : Prop :=
  ∃ d, IsRun d ∧ (x = u ++ '@' :: d ∨ ∃ e, IsRun e ∧ x = u ++ '@' :: d ++ '#' :: e)

/-- What the numbers stand behind is determined. -/
theorem Numbered.unique {u u' x : Text} (h : Numbered u x) (h' : Numbered u' x) : u = u' := by
  obtain ⟨d, hd, rfl | ⟨e, he, rfl⟩⟩ := h <;> obtain ⟨d', hd', hx | ⟨e', he', hx⟩⟩ := h'
  · exact (append_cons_inj (by decide) (by decide) hd hd' hx).1
  · exact absurd (append_cons_inj (by decide) (by decide) hd he' hx).2.1 (by decide)
  · exact absurd (append_cons_inj (by decide) (by decide) he hd' hx).2.1 (by decide)
  · have hx' := (append_cons_inj (by decide) (by decide) he he' hx).1
    exact (append_cons_inj (by decide) (by decide) hd hd' hx').1

theorem Numbered.append_left {u x : Text} (h : Numbered u x) (t : Text) :
    Numbered (t ++ u) (t ++ x) := by
  obtain ⟨d, hd, rfl | ⟨e, he, rfl⟩⟩ := h
  · exact ⟨d, hd, Or.inl (by simp)⟩
  · exact ⟨d, hd, Or.inr ⟨e, he, by simp⟩⟩

/-- A numbered text ends in a number behind one of two signs. -/
theorem Numbered.exists_end {u x : Text} (h : Numbered u x) :
    ∃ a c r, (c = '@' ∨ c = '#') ∧ IsRun r ∧ x = a ++ c :: r := by
  obtain ⟨d, hd, rfl | ⟨e, he, rfl⟩⟩ := h
  · exact ⟨u, '@', d, Or.inl rfl, hd, rfl⟩
  · exact ⟨u ++ '@' :: d, '#', e, Or.inr rfl, he, rfl⟩

/-- A variant of an id is numbered as the id is. -/
theorem Numbered.of_isVariant {id x : String} {u : Text} {line : Int} (hline : 0 ≤ line)
    (hid : id.toList = u ++ '@' :: (toString line).toList) (h : IsVariant id x) :
    Numbered u x.toList := by
  rcases h with rfl | ⟨n, rfl⟩
  · exact ⟨_, isRun_line hline, Or.inl hid⟩
  · refine ⟨_, isRun_line hline, Or.inr ⟨_, isRun_digits n, ?_⟩⟩
    rw [withSuffix, String.toList_append, String.toList_append, hid]
    simp

/-- The text of a file and a name. -/
def qualified (f name : Text) : Text := f ++ ':' :: ':' :: name

/-- The id of a declaration at the top. -/
theorem toList_naturalId_none (f name : String) (line : Int) :
    (naturalId f name line none).toList =
      qualified f.toList name.toList ++ '@' :: (toString line).toList := by
  simp [naturalId, qualified]

/-- The id of a member. -/
theorem toList_naturalId_some (f name c : String) (line : Int) :
    (naturalId f name line (some c)).toList =
      (qualified f.toList name.toList ++ '@' :: c.toList) ++ '@' :: (toString line).toList := by
  simp [naturalId, qualified]

theorem numbered_fileSymbolId (f : String) :
    Numbered (qualified f.toList fileKey.toList) (fileSymbolId f).toList :=
  Numbered.of_isVariant (by decide) (toList_naturalId_none f fileKey 1) (Or.inl rfl)

/-- An id at the top is a qualified name with a number. -/
theorem IsTopId.numbered {f x : String} (h : IsTopId f x) :
    ∃ name : Text, IsRun name ∧ Numbered (qualified f.toList name) x.toList := by
  obtain ⟨name, line, hname, hline, hx⟩ := h
  exact ⟨name.toList, hname.2, .of_isVariant hline (toList_naturalId_none f name line) hx⟩

/-- That of a member has the id of its class within it. -/
theorem IsMemberId.numbered {f x : String} (h : IsMemberId f x) :
    ∃ (m k c : Text), IsRun m ∧ m ≠ [] ∧ IsRun k ∧ Numbered (qualified f.toList k) c ∧
      Numbered (qualified f.toList m ++ '@' :: c) x.toList := by
  obtain ⟨name, line, c, hname, hline, hc, hx⟩ := h
  obtain ⟨k, hk, hck⟩ := hc.numbered
  exact ⟨name.toList, k, c.toList, hname.2, hname.1, hk, hck,
    .of_isVariant hline (toList_naturalId_some f name c line) hx⟩

/-! ### Reading the file -/

/-- A qualified name tells its file. -/
theorem qualified_inj {f f' name name' : Text} (hn : IsRun name) (hn' : IsRun name')
    (h : qualified f name = qualified f' name') : f = f' := by
  have h' : (f ++ [':']) ++ ':' :: name = (f' ++ [':']) ++ ':' :: name' := by
    simpa [qualified] using h
  exact List.append_cancel_right (append_cons_inj (by decide) (by decide) hn hn' h').1

/-- A name behind `::` is no number behind `@` or `#`. -/
theorem qualified_ne_numbered {f name t u c : Text} (hn : IsRun name) (h : Numbered u c) :
    qualified f name ≠ t ++ '@' :: c := by
  intro he
  obtain ⟨a, s, r, hs, hr, rfl⟩ := h.exists_end
  have he' : (f ++ [':']) ++ ':' :: name = (t ++ '@' :: a) ++ s :: r := by
    simpa [qualified] using he
  rcases hs with rfl | rfl
  · exact absurd (append_cons_inj (by decide) (by decide) hn hr he').2.1 (by decide)
  · exact absurd (append_cons_inj (by decide) (by decide) hn hr he').2.1 (by decide)

/-- `<file>` ends in a sign that neither names nor numbers have. -/
theorem qualified_fileKey (f : Text) :
    qualified f fileKey.toList = (f ++ "::<file".toList) ++ '>' :: [] := by
  have h : fileKey.toList = "<file".toList ++ ['>'] := by decide
  rw [qualified, h]
  simp

theorem isRun_nil : IsRun [] := fun c hc => by simp at hc

/-- In `f::m@f` the border `f` cannot be longer than it is: a longer one would have its `::`
inside of the name `m`. -/
theorem not_bordered_of_lt {f g m m' : Text} (hm : IsRun m) (hlt : f.length < g.length)
    (h : qualified f m ++ '@' :: f = qualified g m' ++ '@' :: g) : False := by
  have hlen := congrArg List.length h
  simp only [qualified, List.length_append, List.length_cons] at hlen
  obtain ⟨i, hi⟩ : ∃ i, g.length = f.length + (i + 1) := ⟨g.length - f.length - 1, by omega⟩
  have him : i < m.length := by omega
  have hat := congrArg (·[g.length + 1]?) h
  have hright : (qualified g m' ++ '@' :: g)[g.length + 1]? = some ':' := by
    rw [qualified, List.append_assoc, List.getElem?_append_right (by omega)]
    simp
  have hleft : (qualified f m ++ '@' :: f)[g.length + 1]? = some m[i] := by
    rw [qualified, List.append_assoc, List.getElem?_append_right (by omega),
      show g.length + 1 - f.length = i + 2 from by omega]
    simp [List.getElem?_append_left him]
  have hcolon : m[i] = ':' := Option.some.inj (hleft.symm.trans (hat.trans hright))
  have := hm m[i] (List.getElem_mem him)
  rw [hcolon] at this
  exact absurd this (by decide)

/-- So does one with the file on both sides. -/
theorem eq_of_bordered {f g m m' : Text} (hm : IsRun m) (hm' : IsRun m')
    (h : qualified f m ++ '@' :: f = qualified g m' ++ '@' :: g) : f = g := by
  have hlen : f.length = g.length := by
    rcases Nat.lt_trichotomy f.length g.length with hlt | heq | hgt
    · exact (not_bordered_of_lt hm hlt h).elim
    · exact heq
    · exact (not_bordered_of_lt hm' hgt h.symm).elim
  have h' : f ++ (':' :: ':' :: m ++ '@' :: f) = g ++ (':' :: ':' :: m' ++ '@' :: g) := by
    simpa [qualified] using h
  exact (List.append_inj h' hlen).1

/-- The id of a member belongs to one file. -/
theorem IsMemberId.unique {f g x : String} (hf : IsMemberId f x) (hg : IsMemberId g x) :
    f = g := by
  obtain ⟨m, k, c, hm, -, hk, hc, hx⟩ := hf.numbered
  obtain ⟨m', k', c', hm', -, hk', hc', hx'⟩ := hg.numbered
  -- the class stands behind the member, and its own numbers come off as well
  have hfm : Numbered (qualified f.toList m ++ '@' :: qualified f.toList k)
      (qualified f.toList m ++ '@' :: c) := by
    simpa using hc.append_left (qualified f.toList m ++ ['@'])
  have hgm : Numbered (qualified g.toList m' ++ '@' :: qualified g.toList k')
      (qualified g.toList m' ++ '@' :: c') := by
    simpa using hc'.append_left (qualified g.toList m' ++ ['@'])
  have h₁ := hfm.unique ((hx.unique hx') ▸ hgm)
  have h₂ : qualified (qualified f.toList m ++ '@' :: f.toList) k =
      qualified (qualified g.toList m' ++ '@' :: g.toList) k' := by
    simpa [qualified] using h₁
  exact String.toList_inj.mp (eq_of_bordered hm hm' (qualified_inj hk hk' h₂))

/-- So does one at the top. -/
theorem IsTopId.unique {f g x : String} (hf : IsTopId f x) (hg : IsTopId g x) : f = g := by
  obtain ⟨name, hn, hx⟩ := hf.numbered
  obtain ⟨name', hn', hx'⟩ := hg.numbered
  exact String.toList_inj.mp (qualified_inj hn hn' (hx.unique hx'))

/-- The two are never the same. -/
theorem IsTopId.not_isMemberId {f g x : String} (hf : IsTopId f x) : ¬ IsMemberId g x := by
  intro hg
  obtain ⟨name, hn, hx⟩ := hf.numbered
  obtain ⟨m, k, c, -, -, -, hc, hx'⟩ := hg.numbered
  exact qualified_ne_numbered hn hc (hx.unique hx')

/-- **The id of a file is the id of no declaration**, of whatever file. -/
theorem not_isIdOf_fileSymbolId (f g : String) :
    ¬ IsTopId g (fileSymbolId f) ∧ ¬ IsMemberId g (fileSymbolId f) := by
  have hx := numbered_fileSymbolId f
  constructor
  · intro h
    obtain ⟨name, hn, hx'⟩ := h.numbered
    have he : (f.toList ++ "::<file".toList) ++ '>' :: [] = (g.toList ++ [':']) ++ ':' :: name := by
      simpa [qualified] using (qualified_fileKey f.toList).symm.trans (hx.unique hx')
    exact absurd (append_cons_inj (by decide) (by decide) isRun_nil hn he).2.1 (by decide)
  · intro h
    obtain ⟨m, k, c, -, -, -, hc, hx'⟩ := h.numbered
    obtain ⟨a, s, r, hs, hr, rfl⟩ := hc.exists_end
    have he : (f.toList ++ "::<file".toList) ++ '>' :: [] =
        (qualified g.toList m ++ '@' :: a) ++ s :: r := by
      simpa using (qualified_fileKey f.toList).symm.trans (hx.unique hx')
    rcases hs with rfl | rfl
    · exact absurd (append_cons_inj (by decide) (by decide) isRun_nil hr he).2.1 (by decide)
    · exact absurd (append_cons_inj (by decide) (by decide) isRun_nil hr he).2.1 (by decide)

/-- The id of a file tells the file. -/
theorem fileSymbolId_inj {f g : String} (h : fileSymbolId f = fileSymbolId g) : f = g := by
  have he := (numbered_fileSymbolId f).unique (h ▸ numbered_fileSymbolId g)
  exact String.toList_inj.mp (List.append_cancel_right he)

/-- **No text is an id of two files.** -/
theorem IsIdOf.unique {f g x : String} (hf : IsIdOf f x) (hg : IsIdOf g x) : f = g := by
  rcases hf with rfl | hf | hf <;> rcases hg with hg | hg | hg
  · exact fileSymbolId_inj hg
  · exact absurd hg (not_isIdOf_fileSymbolId f g).1
  · exact absurd hg (not_isIdOf_fileSymbolId f g).2
  · exact absurd (hg ▸ hf) (not_isIdOf_fileSymbolId g f).1
  · exact hf.unique hg
  · exact absurd hg hf.not_isMemberId
  · exact absurd (hg ▸ hf) (not_isIdOf_fileSymbolId g f).2
  · exact absurd hf hg.not_isMemberId
  · exact hf.unique hg

end SymbolAtlas
