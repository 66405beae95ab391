import SymbolAtlas.Proofs.Attribution
import SymbolAtlas.Proofs.Brackets

/-!
# Scopes are nested or apart

The scope of a declaration is its body, or its name if it has none.  Of two declarations of a text
the earlier one's scope contains that of the later one, or ends before it starts
(`Outline.scopes_laminar`).  Names are found line by line and bodies by matching braces, so this
rests on two facts: a body found from inside another one, or from before its opening, ends no later
(`Declaration.bodyEnd_le`), and no brace stands on a line before the name declared on it
(`Outline.lineOf_closer_lt`).

A class is open until a blank line, whatever its braces say.  So a method's body lies in the body of
its class exactly if the method is named before the class is closed
(`Outline.method_body_inside_iff`), and `Outline.method_behind_class` has one that is not.
-/

namespace SymbolAtlas

/-- Strict lexicographic order: by line, then by column. -/
def Position.Before (p q : Position) : Prop :=
  p.line < q.line ∨ p.line = q.line ∧ p.column < q.column

instance (p q : Position) : Decidable (p.Before q) := inferInstanceAs (Decidable (_ ∨ _))

/-! ### Closing braces and names -/

namespace Punctuation

/-- A character of a text that closes something is a mark. -/
theorem getElem?_closer {t : Text} {o c : Nat} (h : (ofText t).closer? o = some c) :
    ∃ x, t[c]? = some x ∧ isMark x = true := by
  obtain ⟨-, b, hb, rfl, -⟩ := exists_closer h
  obtain ⟨hmark, pre, post, rfl, hoffset⟩ := exists_split_of_mem_marksFrom hb
  refine ⟨b.char, ?_, hmark⟩
  rw [hoffset, Nat.zero_add, List.getElem?_append_right (Nat.le_refl _), Nat.sub_self]
  rfl

end Punctuation

namespace Declaration

variable {t : Text} {d e : Declaration} {last : Nat}

theorem Stands.nameEnd_le_length (h : e.Stands t) : e.nameOffset t + e.name.length ≤ t.length := by
  obtain ⟨pre, post, ht, hpre⟩ := h.named
  have hlen : t.length = pre.length + e.name.toList.length + post.length := by
    rw [congrArg List.length ht, List.length_append, List.length_append]
  rw [String.length_toList] at hlen
  omega

/-- A brace that does not stand before a name stands behind it. -/
theorem Stands.nameEnd_le (h : e.Stands t) (hn : IsName e.name) {o c : Nat}
    (hclose : (Punctuation.ofText t).closer? o = some c) (hc : e.nameOffset t ≤ c) :
    e.nameOffset t + e.name.length ≤ c := by
  obtain ⟨x, hx, hmark⟩ := Punctuation.getElem?_closer hclose
  obtain ⟨pre, post, ht, hpre⟩ := h.named
  by_contra hlt
  have hlen : e.name.toList.length = e.name.length := String.length_toList
  -- the brace would be a character of the name
  have hmem : x ∈ e.name.toList := by
    refine List.mem_of_getElem? (i := c - pre.length) ?_
    rw [ht, List.append_assoc, List.getElem?_append_right (by omega),
      List.getElem?_append_left (by omega)] at hx
    exact hx
  rw [isMark_of_isIdent (hn.2 x hmem)] at hmark
  cases hmark

theorem Stands.nameOffset_lt (h : e.Stands t) (hn : IsName e.name) {o c : Nat}
    (hclose : (Punctuation.ofText t).closer? o = some c) (hc : e.nameOffset t ≤ c) :
    e.nameOffset t < c := by
  have hle := h.nameEnd_le hn hclose hc
  have hpos : 0 < e.name.length := by
    rw [← String.length_toList]
    exact List.length_pos_of_ne_nil hn.1
  omega

/-- The later declaration of two is named behind the name of the earlier one. -/
theorem Stands.nameEnd_le_nameOffset (hd : d.Stands t) (he : e.Stands t) (hline : d.line < e.line) :
    d.nameOffset t + d.name.length ≤ e.nameOffset t := by
  rcases Nat.le_total (d.nameOffset t + d.name.length) (e.nameOffset t) with hle | hge
  · exact hle
  · have hpos := (LineIndex.positionOf_le_iff (LineIndex.ascending_ofText t)).mpr hge
    rw [hd.stop, he.start, Position.le_iff] at hpos
    simp only [selection, Span.start, Span.stop] at hpos
    omega

/-- A body ends behind the name, and inside the text. -/
theorem Stands.nameOffset_le_bodyEnd (h : e.Stands t) (hlast : e.bodyEnd? t = some last) :
    e.nameOffset t ≤ last ∧ last ≤ t.length := by
  obtain ⟨b, hb, rfl⟩ := Option.map_eq_some_iff.mp hlast
  have hleads := Punctuation.blockAfter_eq_some_iff.mp hb
  have hname := h.nameEnd_le_length
  cases hc : b.closer with
  | none =>
    rw [Option.getD_none]
    omega
  | some c =>
    obtain ⟨x, hx, -⟩ := Punctuation.getElem?_closer (hleads.closer_eq.symm.trans hc)
    have hbehind := hleads.lt_closer hc
    have hlength := (List.getElem?_eq_some_iff.mp hx).1
    rw [Option.getD_some]
    omega

/-- A name does not reach across the end of a body that it starts before. -/
theorem Stands.nameEnd_le_bodyEnd (he : e.Stands t) (hn : IsName e.name)
    (hlast : d.bodyEnd? t = some last) (hin : e.nameOffset t ≤ last) :
    e.nameOffset t + e.name.length ≤ last := by
  obtain ⟨b, hb, rfl⟩ := Option.map_eq_some_iff.mp hlast
  have hleads := Punctuation.blockAfter_eq_some_iff.mp hb
  cases hc : b.closer with
  | none => exact he.nameEnd_le_length
  | some c =>
    rw [hc, Option.getD_some] at hin
    exact he.nameEnd_le hn (hleads.closer_eq.symm.trans hc) hin

/-- **A body found further on ends no later**, unless its declaration is named behind the end. -/
theorem Stands.bodyEnd_le (hd : d.Stands t) (he : e.Stands t) (hn : IsName e.name)
    (hline : d.line < e.line) {last' : Nat} (hlast : d.bodyEnd? t = some last)
    (hlast' : e.bodyEnd? t = some last') (hin : e.nameOffset t ≤ last) : last' ≤ last := by
  have hlength := (he.nameOffset_le_bodyEnd hlast').2
  have hname := he.nameEnd_le_bodyEnd hn hlast hin
  have horder := hd.nameEnd_le_nameOffset he hline
  obtain ⟨b, hb, rfl⟩ := Option.map_eq_some_iff.mp hlast
  obtain ⟨b', hb', rfl⟩ := Option.map_eq_some_iff.mp hlast'
  have hleads := Punctuation.blockAfter_eq_some_iff.mp hb
  have hleads' := Punctuation.blockAfter_eq_some_iff.mp hb'
  cases hc : b.closer with
  | none => rwa [Option.getD_none]
  | some c =>
    rw [hc, Option.getD_some] at hname
    obtain ⟨c', hc', hle⟩ := hleads.closer_le hleads' (by omega) hc hname
    rwa [hc', Option.getD_some, Option.getD_some]

/-! ### Scopes by offsets -/

/-- The scope of a declaration with a body ends one column past the end of the body. -/
theorem Stands.stop_scope_of_body (h : e.Stands t) (hlast : e.bodyEnd? t = some last) :
    e.scope.stop = ⟨((LineIndex.ofText t).positionOf last).line,
      ((LineIndex.ofText t).positionOf last).column + 1⟩ := by
  rw [scope, h.body, hlast]
  rfl

/-- The scope of a declaration without a body ends with its name. -/
theorem Stands.stop_scope_of_no_body (h : e.Stands t) (hnone : e.bodyEnd? t = none) :
    e.scope.stop = (LineIndex.ofText t).positionOf (e.nameOffset t + e.name.length) := by
  rw [scope, h.body, hnone, h.stop]
  rfl

/-- The scope of a declaration contains every position of an offset from the name to the end of the
body. -/
theorem Stands.scope_contains (hd : d.Stands t) {i : Nat} (hlast : d.bodyEnd? t = some last)
    (hi : d.nameOffset t ≤ i) (hi' : i ≤ last) :
    d.scope.contains ((LineIndex.ofText t).positionOf i) = true := by
  have hasc := LineIndex.ascending_ofText t
  rw [Span.contains_iff, hd.start_scope, hd.stop_scope_of_body hlast]
  exact ⟨(LineIndex.positionOf_le_iff hasc).mpr hi,
    (LineIndex.positionOf_le_shift hasc (d := 1) (Or.inl hi')).mpr hi'⟩

/-- **The scope of a declaration named inside a body lies inside it too.** -/
theorem Stands.scope_containsSpan (hd : d.Stands t) (he : e.Stands t) (hn : IsName e.name)
    (hline : d.line < e.line) (hlast : d.bodyEnd? t = some last) (hin : e.nameOffset t ≤ last) :
    d.scope.containsSpan e.scope = true := by
  have hasc := LineIndex.ascending_ofText t
  have horder := hd.nameEnd_le_nameOffset he hline
  rw [Span.containsSpan, Bool.and_eq_true, he.start_scope]
  refine ⟨hd.scope_contains hlast (by omega) hin, ?_⟩
  cases hlast' : e.bodyEnd? t with
  | none =>
    rw [he.stop_scope_of_no_body hlast']
    exact hd.scope_contains hlast (by omega) (he.nameEnd_le_bodyEnd hn hlast hin)
  | some last' =>
    have hle := hd.bodyEnd_le he hn hline hlast hlast' hin
    have hbehind := (he.nameOffset_le_bodyEnd hlast').1
    -- both bodies end one column past their last offsets, which come in this order
    have hstart := (LineIndex.positionOf_le_iff hasc).mpr (show d.nameOffset t ≤ last' by omega)
    have hstop := (LineIndex.positionOf_le_iff hasc).mpr hle
    rw [Span.contains_iff, hd.start_scope, hd.stop_scope_of_body hlast,
      he.stop_scope_of_body hlast']
    rw [Position.le_iff] at hstart hstop
    simp only [Position.le_iff]
    omega

end Declaration

/-! ### Scopes apart -/

namespace Outline

variable {t : Text} {e : Declaration}

/-- **No brace stands on a line before the name declared on it**: one that stands before the name
stands on an earlier line. -/
theorem lineOf_closer_lt (he : e ∈ (ofText t).declarations) {o c : Nat}
    (hclose : (Punctuation.ofText t).closer? o = some c) (hc : c < e.nameOffset t) :
    ((LineIndex.ofText t).positionOf c).line < e.line := by
  have hasc := LineIndex.ascending_ofText t
  obtain ⟨k, a, l, n, ha, hn, hline, -, hoffset, hlength⟩ := exists_line_of_mem he
  -- otherwise the brace is among the characters before the name, where there are no marks
  have hearlier : c < a := by
    by_contra hge
    obtain ⟨x, hx, hmark⟩ := Punctuation.getElem?_closer hclose
    obtain ⟨pre, post, rfl, rfl⟩ := ha.split
    have hmem : x ∈ l.take n.before := by
      refine List.mem_of_getElem? (i := c - pre.length) ?_
      rw [List.append_assoc, List.getElem?_append_right (by omega),
        List.getElem?_append_left (by omega)] at hx
      rw [List.getElem?_take_of_lt (by omega)]
      exact hx
    rw [LineKind.unmarked_of_ofLine hn x hmem] at hmark
    cases hmark
  obtain ⟨k', a', hc'⟩ := LineIndex.exists_onLine hasc c
  have hle := hc'.le
  have hstart := ha.onLine (c := 0) (Nat.zero_le _)
  rw [LineIndex.positionOf_eq hasc hc', hline]
  dsimp only
  rcases hc'.mono hasc hstart (by omega) with ⟨-, rfl⟩ | hk
  · omega
  · omega

/-- Of two declarations of a text the earlier one stands on an earlier line. -/
theorem line_lt (t : Text) : (ofText t).declarations.Pairwise (·.line < ·.line) :=
  List.pairwise_map.mp (lines_sorted t)

theorem isName_of_mem (he : e ∈ (ofText t).declarations) : IsName e.name := by
  obtain ⟨before, after, h⟩ := List.append_of_mem he
  exact (placed_of_mem t h).named

/-- The scope of a declaration ends before that of one that is named behind the end of its body. -/
theorem scope_before {d : Declaration} (hd : d ∈ (ofText t).declarations)
    (he : e ∈ (ofText t).declarations) {last : Nat} (hlast : d.bodyEnd? t = some last)
    (hout : last < e.nameOffset t) : d.scope.stop.Before e.scope.start := by
  have hstands := stands_of_mem he
  rw [(stands_of_mem hd).stop_scope_of_body hlast, hstands.start_scope, hstands.start]
  obtain ⟨b, hb, rfl⟩ := Option.map_eq_some_iff.mp hlast
  have hleads := Punctuation.blockAfter_eq_some_iff.mp hb
  have hlength := hstands.nameEnd_le_length
  cases hc : b.closer with
  | none =>
    rw [hc, Option.getD_none] at hout
    omega
  | some c =>
    rw [hc, Option.getD_some] at hout
    exact Or.inl (lineOf_closer_lt he (hleads.closer_eq.symm.trans hc) hout)

/-- **Scopes are nested or apart.**  Of two declarations of a text, however its braces, quotes and
comments are balanced, the earlier one's scope contains that of the later one, or ends before it
starts. -/
theorem scopes_laminar (t : Text) :
    (ofText t).declarations.Pairwise fun d e =>
      d.scope.containsSpan e.scope = true ∨ d.scope.stop.Before e.scope.start := by
  refine (line_lt t).imp_of_mem fun {d e} hd he hline => ?_
  have hstands := stands_of_mem hd
  have hstands' := stands_of_mem he
  cases hlast : d.bodyEnd? t with
  | none =>
    refine Or.inr (Or.inl ?_)
    rw [hstands.stop_scope_of_no_body hlast, hstands'.start_scope, hstands.stop, hstands'.start]
    exact hline
  | some last =>
    rcases Nat.lt_or_ge last (e.nameOffset t) with hout | hin
    · exact Or.inr (scope_before hd he hlast hout)
    · exact Or.inl (hstands.scope_containsSpan hstands' (isName_of_mem he) hline hlast hin)

/-! ### Methods and their classes -/

/-- A class stands on an earlier line than its methods. -/
theorem line_lt_of_container {i : Nat} {c m : Declaration}
    (hc : (ofText t).declarations[i]? = some c) (hm : m ∈ (ofText t).declarations)
    (hcontainer : m.container = some i) : c.line < m.line := by
  obtain ⟨before, after, hsplit⟩ := List.append_of_mem hm
  obtain ⟨k, hk, -⟩ := (placed_of_mem t hsplit).container i hcontainer
  have hlt := (List.getElem?_eq_some_iff.mp hk).1
  rw [hsplit, List.getElem?_append_left hlt] at hc
  have hlines := line_lt t
  rw [hsplit] at hlines
  exact (List.pairwise_append.mp hlines).2.2 c (List.mem_of_getElem? hc) m (List.mem_cons_self ..)

/-- **A method's body lies in the body of its class exactly if the method is named before the class
is closed.**  A class that is never closed has all the bodies of its methods. -/
theorem method_body_inside_iff {t : Text} {i : Nat} {c m : Declaration} {body body' : Span}
    (hc : (ofText t).declarations[i]? = some c) (hm : m ∈ (ofText t).declarations)
    (hcontainer : m.container = some i) (hbody : c.body = some body)
    (hbody' : m.body = some body') :
    body.containsSpan body' = true ↔
      ∀ close, c.closer? t = some close → m.nameOffset t < close := by
  have hline := line_lt_of_container hc hm hcontainer
  have hin := List.mem_of_getElem? hc
  have hstands := stands_of_mem hin
  have hstands' := stands_of_mem hm
  have hn := isName_of_mem hm
  have hscope : c.scope = body := by rw [Declaration.scope, hbody]; rfl
  have hscope' : m.scope = body' := by rw [Declaration.scope, hbody']; rfl
  obtain ⟨last, hlast, -⟩ := Option.map_eq_some_iff.mp (hstands.body.symm.trans hbody)
  obtain ⟨b, hb, hend⟩ := Option.map_eq_some_iff.mp hlast
  have hcloser : c.closer? t = b.closer := by rw [Declaration.closer?, hb]; rfl
  rw [← hscope, ← hscope', hcloser]
  constructor
  · intro hcontains close hclose
    rw [hclose, Option.getD_some] at hend
    subst hend
    have hleads := Punctuation.blockAfter_eq_some_iff.mp hb
    rcases Nat.lt_or_ge close (m.nameOffset t) with hout | hle
    case inr => exact hstands'.nameOffset_lt hn (hleads.closer_eq.symm.trans hclose) hle
    -- what is named behind the closing brace is not contained
    have hbefore := scope_before hin hm hlast hout
    have hstart := (Span.contains_iff.mp (Bool.and_eq_true_iff.mp hcontains).1).2
    rw [Position.le_iff] at hstart
    unfold Position.Before at hbefore
    omega
  · intro hnamed
    refine hstands.scope_containsSpan hstands' hn hline hlast ?_
    rw [← hend]
    cases hclose : b.closer with
    | none =>
      have hlength := hstands'.nameEnd_le_length
      rw [Option.getD_none]
      omega
    | some close => exact Nat.le_of_lt (hnamed close hclose)

/-- A class with a method. -/
def methodInClass : Text := ("class K \x7b\n" ++ "  m() {}\n\x7d").toList

/-- The method is named before the class is closed. -/
theorem methodInClass_inside :
    (ofText methodInClass).declarations =
        [⟨"K", .klass, 1, 7, none, some ⟨1, 7, 3, 2⟩, none, some ⟨3, none⟩⟩,
          ⟨"m", .method, 2, 3, some 0, some ⟨2, 3, 2, 9⟩, none, some ⟨1, some 1⟩⟩] ∧
      Span.containsSpan ⟨1, 7, 3, 2⟩ ⟨2, 3, 2, 9⟩ = true := by
  have hds : (ofText methodInClass).declarations =
      [⟨"K", .klass, 1, 7, none, some ⟨1, 7, 3, 2⟩, none, some ⟨3, none⟩⟩,
        ⟨"m", .method, 2, 3, some 0, some ⟨2, 3, 2, 9⟩, none, some ⟨1, some 1⟩⟩] := by
    decide +kernel
  have hclass := congrArg (·[0]?) hds
  have hmethod : ⟨"m", .method, 2, 3, some 0, some ⟨2, 3, 2, 9⟩, none, some ⟨1, some 1⟩⟩ ∈
      (ofText methodInClass).declarations := by
    rw [hds]
    exact List.mem_cons_of_mem _ (List.mem_cons_self ..)
  refine ⟨hds, (method_body_inside_iff hclass hmethod rfl rfl rfl).mpr fun close hclose => ?_⟩
  have hcloser : Declaration.closer? methodInClass
      ⟨"K", .klass, 1, 7, none, some ⟨1, 7, 3, 2⟩, none, some ⟨3, none⟩⟩ = some 19 := by
    decide +kernel
  obtain rfl : 19 = close := Option.some.inj (hcloser.symm.trans hclose)
  decide +kernel

/-- Not all bodies of methods lie in those of their classes: no blank line stands between the class
and the method behind it. -/
theorem method_behind_class :
    (ofText "class A {}\nfoo() {}".toList).declarations =
        [⟨"A", .klass, 1, 7, none, some ⟨1, 7, 1, 11⟩, none, some ⟨1, none⟩⟩,
          ⟨"foo", .method, 2, 1, some 0, some ⟨2, 1, 2, 9⟩, none, some ⟨1, some 1⟩⟩] ∧
      Span.containsSpan ⟨1, 7, 1, 11⟩ ⟨2, 1, 2, 9⟩ = false := by
  decide +kernel

end Outline

end SymbolAtlas
