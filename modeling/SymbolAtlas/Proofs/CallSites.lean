import SymbolAtlas.Proofs.Attribution
import SymbolAtlas.Proofs.LineEndings
import SymbolAtlas.Proofs.WellFormed

/-!
# Where calls are found

A name is called where it stands, with no identifier character before it and with blanks and a
parenthesis behind it (`CallSite`).  The scan for calls goes on behind each call that it has found.
It still finds all of them (`mem_callOffsets_iff`), since no call starts inside of another: a name
begins with an identifier character, and in a call these are found in the name only, where each but
the first follows another one (`CallAhead.length_le`).

So the calls of a snapshot are told by its text and its symbols alone
(`Session.Moment.callEdges_exact`).  A declared name is a whole word, and so is a name that is
called.  Hence what could be called where a function or method is declared bears its name, and that
is not called there (`Snapshot.DrawnFrom.not_callsAt`).  A class has no such protection
(`Session.class_calls_at_its_name`).
-/

namespace SymbolAtlas

variable {name t : Text} {i : Nat}

/-! ### Calls in a text -/

/-- The text starts with a call of `name`: with the name, blanks and a parenthesis. -/
def CallAhead (name t : Text) : Prop :=
  ∃ gap rest, t = name ++ (gap ++ '(' :: rest) ∧ ∀ c ∈ gap, isBlank c = true

/-- At the offset `i` there is a call of `name`, with no identifier character before it. -/
structure CallSite (t : Text) (name : String) (i : Nat) : Prop where
  apart : (t.take i).getLast?.any isIdent = false
  ahead : CallAhead name.toList (t.drop i)

theorem callLength?_eq_some_iff {n : Nat} :
    callLength? name t = some n ↔ ∃ gap rest, t = name ++ (gap ++ '(' :: rest) ∧
      (∀ c ∈ gap, isBlank c = true) ∧ n = name.length + gap.length + 1 := by
  constructor
  · intro h
    unfold callLength? at h
    split at h
    · cases h
    · rename_i rest hrest
      have ht := List.isPrefixOf?_eq_some_iff_append_eq.mp hrest
      have hsplit := List.prefix_iff_eq_append.mp (List.takeWhile_prefix isBlank (l := rest))
      dsimp only at h
      split at h
      · rename_i v hv
        rw [hv] at hsplit
        exact ⟨rest.takeWhile isBlank, v, by rw [hsplit, ht],
          fun c hc => List.mem_takeWhile_imp hc, (Option.some.inj h).symm⟩
      · cases h
  · rintro ⟨gap, rest, rfl, hgap, rfl⟩
    have hpre : name.isPrefixOf? (name ++ (gap ++ '(' :: rest)) = some (gap ++ '(' :: rest) :=
      List.isPrefixOf?_eq_some_iff_append_eq.mpr rfl
    have htake : (gap ++ '(' :: rest).takeWhile isBlank = gap := by
      rw [List.takeWhile_append_of_pos hgap, List.takeWhile_cons_of_neg (by decide),
        List.append_nil]
    simp only [callLength?, hpre, htake, List.drop_left]

instance (name t : Text) : Decidable (CallAhead name t) :=
  decidable_of_iff ((callLength? name t).isSome = true) <| by
    rw [Option.isSome_iff_exists]
    constructor
    · rintro ⟨n, hn⟩
      obtain ⟨gap, rest, ht, hgap, -⟩ := callLength?_eq_some_iff.mp hn
      exact ⟨gap, rest, ht, hgap⟩
    · rintro ⟨gap, rest, ht, hgap⟩
      exact ⟨_, callLength?_eq_some_iff.mpr ⟨gap, rest, ht, hgap, rfl⟩⟩

instance (t : Text) (name : String) (i : Nat) : Decidable (CallSite t name i) :=
  decidable_of_iff ((t.take i).getLast?.any isIdent = false ∧ CallAhead name.toList (t.drop i))
    ⟨fun ⟨h, h'⟩ => ⟨h, h'⟩, fun ⟨h, h'⟩ => ⟨h, h'⟩⟩

/-- **No call starts inside of another one.**  Before its start there would be a blank of the other
call, and it would start with a blank or with the parenthesis. -/
theorem CallAhead.length_le {name t gap rest : Text} (hname : name ≠ [])
    (hident : ∀ c ∈ name, isIdent c = true) (ht : t = name ++ (gap ++ '(' :: rest))
    (hgap : ∀ c ∈ gap, isBlank c = true) {i : Nat} (hi : 0 < i)
    (hapart : (t.take i).getLast?.any isIdent = false) (hcall : CallAhead name (t.drop i)) :
    name.length + gap.length + 1 ≤ i := by
  obtain ⟨gap', rest', hahead, -⟩ := hcall
  obtain ⟨first, name', rfl⟩ := List.exists_cons_of_ne_nil hname
  have hfirst : t[i]? = some first := by
    have := congrArg (fun u : Text => u[0]?) hahead
    simpa using this
  by_contra hlt
  -- the character before is none of the name
  have hbehind : (first :: name').length < i := by
    by_contra hle
    have hlast : t[i - 1]? = some (first :: name')[i - 1] := by
      rw [ht, List.getElem?_append_left (by omega), List.getElem?_eq_getElem]
    rw [List.getLast?_take, if_neg (by omega), hlast, Option.some_or, Option.any_some,
      hident _ (List.getElem_mem _)] at hapart
    cases hapart
  -- so the first one is none either
  rw [ht, List.getElem?_append_right (by omega)] at hfirst
  have hfirst' : isIdent first = false := by
    rcases Nat.lt_or_ge (i - (first :: name').length) gap.length with hin | hout
    · rw [List.getElem?_append_left hin] at hfirst
      exact isIdent_of_isBlank (hgap first (List.mem_of_getElem? hfirst))
    · have hparen : i - (first :: name').length - gap.length = 0 := by omega
      rw [List.getElem?_append_right hout, hparen] at hfirst
      obtain rfl : '(' = first := by simpa using hfirst
      decide
  rw [hident first (List.mem_cons_self ..)] at hfirst'
  cases hfirst'

/-- In a text that follows the character `before` there is a call behind `j` characters, of which
`skip` at least are passed over. -/
structure CallBehind (name : Text) (skip : Nat) (before : Option Char) (t : Text) (j : Nat) :
    Prop where
  skipped : skip ≤ j
  apart : ((t.take j).getLast?.or before).any isIdent = false
  ahead : CallAhead name (t.drop j)

theorem getLast?_take_cons (c : Char) (t : Text) (j : Nat) :
    ((c :: t).take (j + 1)).getLast? = (t.take j).getLast?.or (some c) := by
  rw [List.take_succ_cons, List.getLast?_cons]
  cases (t.take j).getLast? <;> rfl

/-- A call is the first thing in a text, or it is found behind the first character. -/
theorem exists_callBehind_cons {skip offset : Nat} {before : Option Char} {c : Char} :
    (∃ j, i = offset + j ∧ CallBehind name skip before (c :: t) j) ↔
      (i = offset ∧ skip = 0 ∧ before.any isIdent = false ∧ CallAhead name (c :: t)) ∨
        ∃ j, i = offset + 1 + j ∧ CallBehind name (skip - 1) (some c) t j := by
  have hlast : ∀ j, ((c :: t).take (j + 1)).getLast?.or before =
      (t.take j).getLast?.or (some c) := fun j => by
    rw [getLast?_take_cons, Option.or_assoc, Option.some_or]
  constructor
  · rintro ⟨j, rfl, hskip, hapart, hahead⟩
    cases j with
    | zero => exact Or.inl ⟨rfl, Nat.le_zero.mp hskip, hapart, hahead⟩
    | succ j => exact Or.inr ⟨j, by omega, by omega, hlast j ▸ hapart, hahead⟩
  · rintro (⟨rfl, rfl, hapart, hahead⟩ | ⟨j, rfl, hskip, hapart, hahead⟩)
    · exact ⟨0, rfl, Nat.le_refl 0, hapart, hahead⟩
    · exact ⟨j + 1, by omega, by omega, (hlast j).symm ▸ hapart, hahead⟩

/-- **The scan finds all calls behind what it passes over.** -/
theorem mem_callsFrom_iff (hne : name ≠ []) (hident : ∀ c ∈ name, isIdent c = true) {skip : Nat}
    {before : Option Char} {offset : Nat} :
    i ∈ callsFrom name skip before offset t ↔
      ∃ j, i = offset + j ∧ CallBehind name skip before t j := by
  fun_induction callsFrom name skip before offset t with
  | case1 skip before offset =>
    refine iff_of_false List.not_mem_nil ?_
    rintro ⟨j, -, -, -, gap, rest, hahead, -⟩
    simp at hahead
  | case2 before offset c t n ih =>
    rw [ih, exists_callBehind_cons, Nat.succ_sub_one]
    exact ⟨Or.inr, fun h => h.resolve_left fun h => absurd h.2.1 (Nat.succ_ne_zero n)⟩
  | case3 before offset c t length hlength ih =>
    split_ifs at hlength with hbefore
    obtain ⟨gap, rest, ht, hgap, rfl⟩ := callLength?_eq_some_iff.mp hlength
    rw [List.mem_cons, ih, exists_callBehind_cons]
    refine or_congr ?_ (exists_congr fun j => and_congr_right fun _ => ?_)
    · exact ⟨fun hi => ⟨hi, rfl, by simpa using hbefore, gap, rest, ht, hgap⟩, fun h => h.1⟩
    · refine ⟨fun h => ⟨Nat.zero_le j, h.apart, h.ahead⟩, fun h => ⟨?_, h.apart, h.ahead⟩⟩
      -- the next call does not start before this one ends
      have hle := CallAhead.length_le hne hident ht hgap (i := j + 1) (Nat.succ_pos j)
        (getLast?_take_cons c t j ▸ h.apart) h.ahead
      omega
  | case4 before offset c t hnone ih =>
    rw [ih, exists_callBehind_cons]
    refine ⟨Or.inr, fun h => h.resolve_left ?_⟩
    rintro ⟨-, -, hbefore, gap, rest, ht, hgap⟩
    rw [hbefore, if_neg Bool.false_ne_true,
      callLength?_eq_some_iff.mpr ⟨gap, rest, ht, hgap, rfl⟩] at hnone
    cases hnone

/-- **The calls of a name are found where they are**, all of them. -/
theorem mem_callOffsets_iff {name : String} (hname : IsName name) :
    i ∈ callOffsets name t ↔ CallSite t name i := by
  rw [callOffsets, mem_callsFrom_iff hname.1 hname.2]
  constructor
  · rintro ⟨j, rfl, -, hapart, hahead⟩
    rw [Nat.zero_add]
    exact ⟨by simpa using hapart, hahead⟩
  · intro h
    exact ⟨i, (Nat.zero_add i).symm, Nat.zero_le i, by simpa using h.apart, h.ahead⟩

/-! ### Declared names -/

/-- What is called is the whole word that stands there. -/
theorem CallSite.takeWhile_drop {name : String} (h : CallSite t name i) (hname : IsName name) :
    (t.drop i).takeWhile isIdent = name.toList := by
  obtain ⟨gap, rest, hahead, hgap⟩ := h.ahead
  rw [hahead]
  refine takeWhile_isIdent hname.2 fun x hx => ?_
  cases gap with
  | nil =>
    obtain rfl : '(' = x := by simpa using hx
    decide
  | cons y gap =>
    obtain rfl : y = x := by simpa using hx
    exact isIdent_of_isBlank (hgap y (List.mem_cons_self ..))

/-- So is what is declared. -/
theorem Outline.takeWhile_drop_nameOffset {e : Declaration} (he : e ∈ (ofText t).declarations)
    (hname : IsName e.name) : (t.drop (e.nameOffset t)).takeWhile isIdent = e.name.toList := by
  obtain ⟨pre, post, ht, hpre⟩ := (stands_of_mem he).named
  have hdrop : t.drop (e.nameOffset t) = e.name.toList ++ post := by
    rw [← hpre, ht, List.append_assoc, List.drop_left]
  rw [hdrop]
  refine takeWhile_isIdent hname.2 fun x hx => name_ends_of_mem he ?_
  have hlen : e.name.toList.length = e.name.length := String.length_toList
  rw [← hlen, ← List.getElem?_drop, hdrop, List.getElem?_append_right (Nat.le_refl _),
    Nat.sub_self, ← List.head?_eq_getElem?, hx]

/-! ### The calls of a snapshot -/

namespace Snapshot

variable {x y : Symbol} {c : Snapshot}

/-- At the offset `i` the symbol `x` calls `y`: the name of `y` is called there, no function or
method of that name is declared there, and `x` is the innermost declaration, or the file if there is
none. -/
structure CallsAt (c : Snapshot) (x y : Symbol) (i : Nat) : Prop where
  site : CallSite c.source y.name i
  undeclared : ∀ z ∈ c.symbols, z.kind = .function ∨ z.kind = .method → z.name = y.name →
    z.selection.start ≠ (LineIndex.ofText c.source).positionOf i
  caller : enclosing c.declared ((LineIndex.ofText c.source).positionOf i) = some x ∨
    enclosing c.declared ((LineIndex.ofText c.source).positionOf i) = none ∧ x.kind = .file

instance (c : Snapshot) (x y : Symbol) (i : Nat) : Decidable (c.CallsAt x y i) :=
  decidable_of_iff (CallSite c.source y.name i ∧
      (∀ z ∈ c.symbols, z.kind = .function ∨ z.kind = .method → z.name = y.name →
        z.selection.start ≠ (LineIndex.ofText c.source).positionOf i) ∧
      (enclosing c.declared ((LineIndex.ofText c.source).positionOf i) = some x ∨
        enclosing c.declared ((LineIndex.ofText c.source).positionOf i) = none ∧ x.kind = .file))
    ⟨fun ⟨h, h', h''⟩ => ⟨h, h', h''⟩, fun ⟨h, h', h''⟩ => ⟨h, h', h''⟩⟩

theorem mem_callables_iff :
    y ∈ c.callables ↔ y ∈ c.symbols ∧ (y.kind = .function ∨ y.kind = .method) := by
  rw [callables, List.mem_filter]
  cases y.kind <;> simp [Kind.isCallable]

theorem mem_declared_of_mem_callables (hy : y ∈ c.callables) : y ∈ c.declared := by
  obtain ⟨hmem, hkind⟩ := mem_callables_iff.mp hy
  refine List.mem_filter.mpr ⟨hmem, decide_eq_true ?_⟩
  rcases hkind with hkind | hkind <;> rw [hkind] <;> decide

theorem declaresAt_eq_false_iff {name : String} {p : Position} :
    c.declaresAt name p = false ↔ ∀ z ∈ c.symbols, z.kind = .function ∨ z.kind = .method →
      z.name = name → z.selection.start ≠ p := by
  rw [declaresAt, List.any_eq_false]
  constructor
  · intro h z hz hkind hname hstart
    exact h z (mem_callables_iff.mpr ⟨hz, hkind⟩) (by simp [hname, hstart])
  · intro h z hz htrue
    obtain ⟨hmem, hkind⟩ := mem_callables_iff.mp hz
    rw [Bool.and_eq_true, decide_eq_true_eq, decide_eq_true_eq] at htrue
    exact h z hmem hkind htrue.1 htrue.2

namespace WellFormed

variable {f : String} {c : Snapshot} (h : c.WellFormed f)
include h

theorem eq_of_id (hx : x ∈ c.symbols) (hy : y ∈ c.symbols) (hid : x.id = y.id) : x = y :=
  List.inj_on_of_nodup_map h.distinct hx hy hid

theorem isName_of_mem_callables (hy : y ∈ c.callables) : IsName y.name :=
  h.named y (mem_declared_of_mem_callables hy)

theorem callerAt_eq_some_iff {p : Position} (hx : x ∈ c.symbols) :
    c.callerAt p = some x ↔ enclosing c.declared p = some x ∨
      enclosing c.declared p = none ∧ x.kind = .file := by
  obtain ⟨file, hsymbols, hkind, -⟩ := h.file
  have hfile : x.kind = .file ↔ file = x := by
    refine ⟨fun hx' => ?_, fun heq => heq ▸ hkind⟩
    rw [hsymbols] at hx
    rcases List.mem_cons.mp hx with rfl | hx
    · rfl
    · exact absurd hx' (of_decide_eq_true (List.mem_filter.mp hx).2)
  rw [callerAt, hsymbols, List.head?_cons, Option.or_eq_some_iff, Option.some.injEq, hfile]

/-- **A call is recorded exactly if it is made somewhere.** -/
theorem mem_callEdges_iff (hx : x ∈ c.symbols) (hy : y ∈ c.symbols) :
    ⟨x.id, y.id⟩ ∈ c.callEdges ↔
      (y.kind = .function ∨ y.kind = .method) ∧ ∃ i, c.CallsAt x y i := by
  rw [Snapshot.mem_callEdges_iff]
  constructor
  · rintro ⟨name, i, hcounts, hedge⟩
    rw [edgesAt] at hedge
    split at hedge
    · cases hedge
    · rename_i caller hcaller
      obtain ⟨callee, hcallee, heq⟩ := List.mem_map.mp hedge
      obtain ⟨hmem, hname⟩ := List.mem_filter.mp hcallee
      obtain ⟨hcallee, hkind⟩ := mem_callables_iff.mp hmem
      obtain rfl := h.eq_of_id (mem_of_callerAt hcaller) hx (congrArg Edge.caller heq)
      obtain rfl := h.eq_of_id hcallee hy (congrArg Edge.callee heq)
      obtain rfl : callee.name = name := of_decide_eq_true hname
      exact ⟨hkind, i, (mem_callOffsets_iff (h.isName_of_mem_callables hmem)).mp hcounts.found,
        declaresAt_eq_false_iff.mp hcounts.undeclared, (h.callerAt_eq_some_iff hx).mp hcaller⟩
  · rintro ⟨hkind, i, hsite, hundeclared, hcaller⟩
    have hmem := mem_callables_iff.mpr ⟨hy, hkind⟩
    refine ⟨y.name, i, ⟨List.mem_map_of_mem hmem, (mem_callOffsets_iff
      (h.isName_of_mem_callables hmem)).mpr hsite, declaresAt_eq_false_iff.mpr hundeclared⟩, ?_⟩
    rw [edgesAt, (h.callerAt_eq_some_iff hx).mpr hcaller]
    exact List.mem_map_of_mem (List.mem_filter.mpr ⟨hmem, decide_eq_true rfl⟩)

end WellFormed

/-- **Where a function or method is declared nothing is called.**  What is called is the whole word
there, which is the declared name. -/
theorem DrawnFrom.not_callsAt {d : Document} {ids : List String} (h : c.DrawnFrom d ids)
    {z : Symbol} (hz : z ∈ c.callables) {i : Nat}
    (hi : (LineIndex.ofText c.source).positionOf i = z.selection.start) (hy : IsName y.name) :
    ¬ c.CallsAt x y i := by
  intro hcalls
  obtain ⟨hmem, hkind⟩ := mem_callables_iff.mp hz
  obtain ⟨e, id, before, rfl, he, hplaced, -⟩ :=
    h.exists_placed (mem_declared_of_mem_callables hz)
  have hsource : c.source = d.content := h.eq ▸ rfl
  have hsite := hcalls.site.takeWhile_drop hy
  have hundeclared := hcalls.undeclared _ hmem hkind
  rw [hsource] at hi hsite hundeclared
  obtain rfl : i = e.nameOffset d.content :=
    LineIndex.positionOf_injective (LineIndex.ascending_ofText d.content)
      (hi.trans (Outline.stands_of_mem he).start.symm)
  rw [Outline.takeWhile_drop_nameOffset he hplaced.named] at hsite
  exact hundeclared (String.toList_inj.mp hsite) hi.symm

end Snapshot

namespace Session

/-- **Calls are recorded exactly as they are made.**  In every snapshot of every session each call
is recorded once, between symbols of the snapshot.  It is recorded that one symbol calls another
exactly if the other is a function or method and is called by the one somewhere in the text.  Where
functions and methods are declared nothing is called. -/
theorem Moment.callEdges_exact {s : Session} (h : s.Moment) {f : String} {c : Snapshot}
    (hc : s.snapshot? f = some c) :
    c.callEdges.Nodup ∧
      (∀ e ∈ c.callEdges, ∃ x ∈ c.symbols, ∃ y ∈ c.symbols, e = ⟨x.id, y.id⟩) ∧
      (∀ x ∈ c.symbols, ∀ y ∈ c.symbols, ⟨x.id, y.id⟩ ∈ c.callEdges ↔
        (y.kind = .function ∨ y.kind = .method) ∧ ∃ i, c.CallsAt x y i) ∧
      ∀ z ∈ c.symbols, z.kind = .function ∨ z.kind = .method →
        ∀ i, (LineIndex.ofText c.source).positionOf i = z.selection.start →
          ∀ y ∈ c.symbols, y.kind = .function ∨ y.kind = .method → ∀ x, ¬ c.CallsAt x y i := by
  have hwell := h.wellFormed hc
  obtain ⟨d, ids, rfl, hdrawn⟩ := h.drawn f c hc
  refine ⟨c.nodup_callEdges, fun e he => ?_, fun x hx y hy => hwell.mem_callEdges_iff hx hy,
    fun z hz hkind i hi y hy hykind x => ?_⟩
  · obtain ⟨⟨x, hx, hcaller⟩, y, hy, hcallee⟩ := Snapshot.ends_of_mem_callEdges he
    exact ⟨x, hx, y, hy, by rw [hcaller, hcallee]⟩
  · exact hdrawn.not_callsAt (Snapshot.mem_callables_iff.mpr ⟨hz, hkind⟩) hi
      (hwell.isName_of_mem_callables (Snapshot.mem_callables_iff.mpr ⟨hy, hykind⟩))

/-- A document is opened. -/
def opened (text : String) : Session :=
  (new .default false (.new false)).run [.openDocument "a.ts" text.toList "typescript" 1]

theorem moment_opened (text : String) : (opened text).Moment :=
  .between ((reachable_new _ _ _).run _)

/-- A function that is called by a method, twice, and by the file, with a line break between the
name and the parenthesis.  What `xf` calls is another function. -/
def manyCalls : String :=
  "class K \x7b\n" ++ "  m() { f (f()); xf(); }\n" ++ "\x7d\n" ++ "function f() {}\n" ++ "f\n()"

/-- The method and the file call the function, each at some place and not where it is declared. -/
theorem manyCalls_callEdges :
    ∃ c, (opened manyCalls).snapshot? "a.ts" = some c ∧
      c.callEdges = [⟨"a.ts::m@a.ts::K@1@2", "a.ts::f@4"⟩, ⟨"a.ts::<file>@1", "a.ts::f@4"⟩] ∧
      (∀ e ∈ c.callEdges, ∃ x ∈ c.symbols, ∃ y ∈ c.symbols, e = ⟨x.id, y.id⟩ ∧
        (y.kind = .function ∨ y.kind = .method) ∧ ∃ i, c.CallsAt x y i) ∧
      ∃ z ∈ c.symbols, z.kind = .function ∧
        (LineIndex.ofText c.source).positionOf 46 = z.selection.start ∧
        ∀ x, ¬ c.CallsAt x z 46 := by
  have hedges : ((opened manyCalls).snapshot? "a.ts").map Snapshot.callEdges =
      some [⟨"a.ts::m@a.ts::K@1@2", "a.ts::f@4"⟩, ⟨"a.ts::<file>@1", "a.ts::f@4"⟩] := by
    decide +kernel
  have hdeclared : ∀ c, (opened manyCalls).snapshot? "a.ts" = some c → ∃ z ∈ c.symbols,
      z.kind = .function ∧ (LineIndex.ofText c.source).positionOf 46 = z.selection.start := by
    decide +kernel
  obtain ⟨c, hc, hcalls⟩ := Option.map_eq_some_iff.mp hedges
  obtain ⟨-, hends, hexact, hsites⟩ := (moment_opened manyCalls).callEdges_exact hc
  obtain ⟨z, hz, hkind, hi⟩ := hdeclared c hc
  refine ⟨c, hc, hcalls, fun e he => ?_, z, hz, hkind, hi,
    hsites z hz (Or.inl hkind) 46 hi z hz (Or.inl hkind)⟩
  obtain ⟨x, hx, y, hy, rfl⟩ := hends e he
  exact ⟨x, hx, y, hy, rfl, (hexact x hx y hy).mp he⟩

/-- Not every declaration is left alone: at its own name a class without a body calls the function
of the same name. -/
theorem class_calls_at_its_name :
    ∃ c ∈ (opened "class f();\nfunction f() {}").snapshot? "a.ts",
      c.callEdges = [⟨"a.ts::f@1", "a.ts::f@2"⟩] ∧
        ∃ z ∈ c.symbols, z.kind = .klass ∧
          (LineIndex.ofText c.source).positionOf 6 = z.selection.start ∧
          ∃ y ∈ c.symbols, y.kind = .function ∧ c.CallsAt z y 6 := by
  decide +kernel

end Session
end SymbolAtlas
