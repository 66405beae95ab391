import Mathlib.Data.List.Induction
import SymbolAtlas.Proofs.Places
import SymbolAtlas.Proofs.Snapshot

/-!
# Who makes a call

A call is attributed by positions: its caller is the declaration whose scope contains the position
and starts latest (`encloses_enclosing`).  In the text this is the declaration named last among
those that cover the call (`Snapshot.callers_cover`).  A declaration with a body covers what stands
from its name through its closing brace, one without just its name (`Declaration.Covers`).

A scope ends one column past the closing brace and contains its end.  Directly behind a closing
brace the caller therefore need not cover the call: `Snapshot.callers_beside_bodies` has such a
call, and one that is covered by a class without a body.
-/

namespace SymbolAtlas

/-! ### The scope that starts latest -/

/-- What encloses a position: nothing, or the last of the symbols whose scope contains it and starts
latest. -/
inductive Encloses (symbols : List Symbol) (p : Position) : Option Symbol → Prop
  | nothing (h : ∀ y ∈ symbols, y.scope.contains p = false) : Encloses symbols p none
  | latest {before after : List Symbol} {x : Symbol} (hsplit : symbols = before ++ x :: after)
      (hx : x.scope.contains p = true)
      (hbefore : ∀ y ∈ before, y.scope.contains p = true → y.scope.start.le x.scope.start = true)
      (hafter : ∀ y ∈ after, y.scope.contains p = true →
        x.scope.start.le y.scope.start = false) : Encloses symbols p (some x)

namespace Encloses

variable {symbols : List Symbol} {p : Position} {x y : Symbol}

theorem mem (h : Encloses symbols p (some x)) : x ∈ symbols := by
  cases h with
  | latest hsplit hx hbefore hafter => simp [hsplit]

theorem contains (h : Encloses symbols p (some x)) : x.scope.contains p = true := by
  cases h with
  | latest hsplit hx hbefore hafter => exact hx

/-- No scope that contains the position starts later. -/
theorem start_le (h : Encloses symbols p (some x)) (hy : y ∈ symbols)
    (hyp : y.scope.contains p = true) : y.scope.start.le x.scope.start = true := by
  cases h with
  | latest hsplit hx hbefore hafter =>
    rw [hsplit, List.mem_append, List.mem_cons] at hy
    rcases hy with hy | rfl | hy
    · exact hbefore y hy hyp
    · exact Position.le_refl _
    · refine (Position.le_total _ _).resolve_right ?_
      rw [hafter y hy hyp]
      exact Bool.false_ne_true

/-- A symbol that does not contain the position changes nothing. -/
theorem append_outside {best : Option Symbol} (h : Encloses symbols p best)
    (hy : y.scope.contains p = false) : Encloses (symbols ++ [y]) p best := by
  cases h with
  | nothing hnone =>
    refine .nothing fun z hz => ?_
    rcases List.mem_append.mp hz with hz | hz
    · exact hnone z hz
    · rw [List.mem_singleton.mp hz, hy]
  | latest hsplit hx hbefore hafter =>
    refine .latest (by rw [hsplit, List.append_assoc, List.cons_append]) hx hbefore ?_
    intro z hz hzp
    rcases List.mem_append.mp hz with hz | hz
    · exact hafter z hz hzp
    · rw [List.mem_singleton.mp hz, hy] at hzp
      cases hzp

/-- Neither does one that starts before the best. -/
theorem append_earlier (h : Encloses symbols p (some x))
    (hy : x.scope.start.le y.scope.start = false) : Encloses (symbols ++ [y]) p (some x) := by
  cases h with
  | latest hsplit hx hbefore hafter =>
    refine .latest (by rw [hsplit, List.append_assoc, List.cons_append]) hx hbefore ?_
    intro z hz hzp
    rcases List.mem_append.mp hz with hz | hz
    · exact hafter z hz hzp
    · rw [List.mem_singleton.mp hz, hy]

/-- One that contains the position and starts no earlier than the best takes its place. -/
theorem append_later {best : Option Symbol} (h : Encloses symbols p best)
    (hy : y.scope.contains p = true)
    (hle : ∀ x, best = some x → x.scope.start.le y.scope.start = true) :
    Encloses (symbols ++ [y]) p (some y) := by
  refine .latest rfl hy (fun z hz hzp => ?_) (by simp)
  cases best with
  | none =>
    cases h with
    | nothing hnone =>
      rw [hnone z hz] at hzp
      cases hzp
  | some x => exact Position.le_trans (h.start_le hz hzp) (hle x rfl)

end Encloses

/-- **Enclosing picks the scope that starts latest.**  The induction adds symbols at the end, as the
search goes. -/
theorem encloses_enclosing (symbols : List Symbol) (p : Position) :
    Encloses symbols p (enclosing symbols p) := by
  induction symbols using List.reverseRecOn with
  | nil => exact .nothing (by simp)
  | append_singleton symbols y ih =>
    have hstep : enclosing (symbols ++ [y]) p =
        if y.scope.contains p &&
          (enclosing symbols p).all fun b => b.scope.start.le y.scope.start then some y
        else enclosing symbols p := by
      rw [enclosing, List.foldl_append]
      rfl
    rw [hstep]
    split_ifs with h
    · obtain ⟨hy, hle⟩ := Bool.and_eq_true_iff.mp h
      refine ih.append_later hy fun x hx => ?_
      rw [hx] at hle
      exact hle
    · cases hy : y.scope.contains p with
      | false => exact ih.append_outside hy
      | true =>
        rw [hy, Bool.true_and] at h
        cases hbest : enclosing symbols p with
        | none => simp [hbest] at h
        | some x =>
          rw [hbest] at h ih
          exact ih.append_earlier (Bool.not_eq_true _ ▸ h)

/-! ### Where calls stand -/

/-- At the offset there is a character, with no identifier character before it. -/
def WordStart (t : Text) (i : Nat) : Prop :=
  ∃ u c v, t = u ++ c :: v ∧ u.length = i ∧ u.getLast?.any isIdent = false

theorem exists_split_of_mem_callsFrom {name : Text} {skip : Nat} {before : Option Char}
    {offset i : Nat} {t : Text} (h : i ∈ callsFrom name skip before offset t) :
    ∃ u c v, t = u ++ c :: v ∧ offset + u.length = i ∧
      (u.getLast?.or before).any isIdent = false := by
  -- what is found further on stands behind one character more
  have hlater : ∀ {o : Nat} {b : Option Char} {c : Char} {t : Text},
      (∃ u c' v, t = u ++ c' :: v ∧ o + 1 + u.length = i ∧
        (u.getLast?.or (some c)).any isIdent = false) →
      ∃ u c' v, c :: t = u ++ c' :: v ∧ o + u.length = i ∧
        (u.getLast?.or b).any isIdent = false := by
    rintro o b c t ⟨u, c', v, rfl, hi, hlast⟩
    refine ⟨c :: u, c', v, rfl, by rw [List.length_cons]; omega, ?_⟩
    rw [List.getLast?_cons, Option.some_or]
    cases hu : u.getLast? with
    | none => simpa [hu] using hlast
    | some x => simpa [hu] using hlast
  fun_induction callsFrom name skip before offset t with
  | case1 => simp at h
  | case2 before offset c t n ih => exact hlater (ih h)
  | case3 before offset c t length hlength ih =>
    rcases List.mem_cons.mp h with rfl | h
    · refine ⟨[], c, t, rfl, rfl, ?_⟩
      rw [List.getLast?_nil, Option.none_or]
      split_ifs at hlength with hb
      simpa using hb
    · exact hlater (ih h)
  | case4 before offset c t hnone ih => exact hlater (ih h)

theorem wordStart_of_mem_callOffsets {name : String} {t : Text} {i : Nat}
    (h : i ∈ callOffsets name t) : WordStart t i := by
  obtain ⟨u, c, v, ht, hi, hlast⟩ := exists_split_of_mem_callsFrom h
  exact ⟨u, c, v, ht, by omega, by simpa using hlast⟩

/-- A word starts within the text. -/
theorem WordStart.lt_length {t : Text} {i : Nat} (h : WordStart t i) : i < t.length := by
  obtain ⟨u, c, v, rfl, rfl, -⟩ := h
  simp

/-- No word starts directly behind a name. -/
theorem WordStart.ne_behind_name {t pre post : Text} {name : String} {i : Nat} (h : WordStart t i)
    (ht : t = pre ++ name.toList ++ post) (hn : IsName name) : i ≠ pre.length + name.length := by
  rintro rfl
  obtain ⟨u, c, v, hsplit, hlen, hlast⟩ := h
  have hu : u = pre ++ name.toList := by
    refine (List.append_inj (hsplit.symm.trans ht) ?_).1
    rw [hlen, List.length_append, String.length_toList]
  obtain ⟨x, hx⟩ := Option.isSome_iff_exists.mp (List.getLast?_isSome.mpr hn.1)
  have hident := hn.2 x (List.mem_of_getLast? hx)
  rw [hu, List.getLast?_append, hx] at hlast
  simp [hident] at hlast

/-! ### What declarations cover -/

namespace Declaration

/-- The offset of the brace that closes the body of a declaration. -/
def closer? (t : Text) (e : Declaration) : Option Nat := (e.block? t).bind (·.closer)

/-- The last offset that belongs to a declaration: that at which its body ends, or that of the last
character of its name if it has none. -/
def lastOffset (t : Text) (e : Declaration) : Nat :=
  (e.bodyEnd? t).getD (e.nameOffset t + e.name.length - 1)

/-- The offset belongs to the declaration. -/
def Covers (t : Text) (e : Declaration) (i : Nat) : Prop :=
  e.nameOffset t ≤ i ∧ i ≤ e.lastOffset t

/-- The offset belongs to the declaration, which has a body. -/
def BodyCovers (t : Text) (e : Declaration) (i : Nat) : Prop :=
  (e.bodyEnd? t).isSome ∧ e.Covers t i

instance (t : Text) (e : Declaration) (i : Nat) : Decidable (e.BodyCovers t i) :=
  inferInstanceAs (Decidable (_ ∧ _ ∧ _))

/-- The stretch of a text that belongs to a declaration. -/
def scope (e : Declaration) : Span := e.body.getD e.selection

theorem Stands.start_scope {t : Text} {e : Declaration} (h : e.Stands t) :
    e.scope.start = (LineIndex.ofText t).positionOf (e.nameOffset t) := by
  rw [h.start, scope, h.body]
  cases e.bodyEnd? t with
  | none => rfl
  | some last => rfl

/-- **The scope of a declaration contains what the declaration covers**, among the offsets at which
words start and that are not directly behind its closing brace. -/
theorem Stands.contains_scope_iff {t : Text} {e : Declaration} (h : e.Stands t)
    (hn : IsName e.name) {i : Nat} (hi : WordStart t i)
    (hbehind : (e.closer? t).map (· + 1) ≠ some i) :
    e.scope.contains ((LineIndex.ofText t).positionOf i) = true ↔ e.Covers t i := by
  have hasc := LineIndex.ascending_ofText t
  rw [Span.contains_iff, h.start_scope, LineIndex.positionOf_le_iff hasc, Covers, lastOffset]
  refine and_congr_right fun _ => ?_
  cases hb : e.block? t with
  | none =>
    have hnone : e.bodyEnd? t = none := by rw [bodyEnd?, hb]; rfl
    have hscope : e.scope = e.selection := by rw [scope, h.body, hnone]; rfl
    obtain ⟨pre, post, ht, hpre⟩ := h.named
    have hne := hi.ne_behind_name ht hn
    rw [hscope, ← h.stop, LineIndex.positionOf_le_iff hasc, hnone, Option.getD_none]
    omega
  | some block =>
    have hsome : e.bodyEnd? t = some (block.closer.getD t.length) := by rw [bodyEnd?, hb]; rfl
    rw [scope, h.body, hsome]
    refine LineIndex.positionOf_le_shift hasc (d := 1) ?_
    have hlt := hi.lt_length
    cases hcloser : block.closer with
    | none => exact Or.inl (Nat.le_of_lt hlt)
    | some close =>
      have hne : close + 1 ≠ i := by
        intro hi
        refine hbehind ?_
        rw [closer?, hb, Option.bind_some, hcloser, Option.map_some, hi]
      rw [Option.getD_some]
      omega

end Declaration

/-- Declarations named at the same offset are the same. -/
theorem Outline.eq_of_nameOffset_eq {t : Text} {e e' : Declaration}
    (he : e ∈ (ofText t).declarations) (he' : e' ∈ (ofText t).declarations)
    (h : e.nameOffset t = e'.nameOffset t) : e = e' := by
  have hstart : e.selection.start = e'.selection.start := by
    rw [← (stands_of_mem he).start, ← (stands_of_mem he').start, h]
  have hline : e.line = e'.line := by
    simpa [Declaration.selection, Span.start] using congrArg Position.line hstart
  have hnodup : ((ofText t).declarations.map Declaration.line).Nodup :=
    (lines_sorted t).imp fun hlt => Int.ne_of_lt hlt
  exact List.inj_on_of_nodup_map hnodup he he' hline

/-- Directly behind the closing brace of a declaration. -/
def BehindBrace (t : Text) (i : Nat) : Prop :=
  ∃ e ∈ (Outline.ofText t).declarations, (e.closer? t).map (· + 1) = some i

instance (t : Text) (i : Nat) : Decidable (BehindBrace t i) :=
  inferInstanceAs (Decidable (∃ e ∈ (Outline.ofText t).declarations, _))

/-- Who makes a call at an offset of a document whose declarations bear the ids `ids`: the
declaration named last among those that cover the offset, or the file if none does. -/
inductive CalledFrom (d : Document) (ids : List String) (i : Nat) : String → Prop
  | declaration {k : Nat} {e : Declaration} {caller : String}
      (hk : (Outline.ofText d.content).declarations[k]? = some e) (hid : ids[k]? = some caller)
      (hcovers : e.Covers d.content i)
      (hlast : ∀ e' ∈ (Outline.ofText d.content).declarations, e'.Covers d.content i → e' ≠ e →
        e'.nameOffset d.content < e.nameOffset d.content) : CalledFrom d ids i caller
  | file (h : ∀ e ∈ (Outline.ofText d.content).declarations, ¬ e.Covers d.content i) :
      CalledFrom d ids i (fileSymbolId d.fileId)

/-- Every declaration of a text is given an id. -/
theorem Lineage.length_of_assign {l : Lineage} {t : Text} {previous : Option Snapshot}
    {ids : List String} (h : (l.assign (Outline.ofText t).declarations previous).1 = .ok ids) :
    ids.length = (Outline.ofText t).declarations.length := by
  obtain ⟨p, -, hlen, -, heq⟩ := assign_eq l previous
    (containersBefore_ofText t) (fun _ _ => True) trivial fun _ _ _ _ _ _ _ => trivial
  rw [heq] at h
  cases hr : (p.lineage.retireAll (goneIds previous p.ids)).1 with
  | error e => simp [hr, Except.map] at h
  | ok u =>
    obtain rfl : p.ids = ids := by simpa [hr, Except.map] using h
    exact hlen

namespace Snapshot

/-- An occurrence of a name that counts as a call: of a callable, and not where one of that name is
declared. -/
structure Counts (s : Snapshot) (name : String) (i : Nat) : Prop where
  callable : name ∈ s.callables.map Symbol.name
  found : i ∈ callOffsets name s.source
  undeclared : s.declaresAt name ((LineIndex.ofText s.source).positionOf i) = false

instance (s : Snapshot) (name : String) (i : Nat) : Decidable (s.Counts name i) :=
  decidable_of_iff (name ∈ s.callables.map Symbol.name ∧ i ∈ callOffsets name s.source ∧
      s.declaresAt name ((LineIndex.ofText s.source).positionOf i) = false)
    ⟨fun ⟨h, h', h''⟩ => ⟨h, h', h''⟩, fun ⟨h, h', h''⟩ => ⟨h, h', h''⟩⟩

/-- The calls of `name` that its occurrence at an offset makes. -/
def edgesAt (s : Snapshot) (name : String) (i : Nat) : List Edge :=
  match s.callerAt ((LineIndex.ofText s.source).positionOf i) with
  | none => []
  | some caller => (s.callables.filter (·.name = name)).map fun callee => ⟨caller.id, callee.id⟩

/-- The calls of a snapshot are those that the counted occurrences make. -/
theorem mem_callEdges_iff (s : Snapshot) (edge : Edge) :
    edge ∈ s.callEdges ↔ ∃ name i, s.Counts name i ∧ edge ∈ s.edgesAt name i := by
  have hedges : ∀ name, s.edgesOf (LineIndex.ofText s.source) name =
      (callOffsets name s.source).flatMap fun i =>
        if s.declaresAt name ((LineIndex.ofText s.source).positionOf i) then []
        else s.edgesAt name i := fun _ => rfl
  simp only [callEdges, List.mem_eraseDups, List.mem_flatMap, hedges]
  constructor
  · rintro ⟨name, hname, i, hi, h⟩
    split_ifs at h with hdeclares
    · simp at h
    · exact ⟨name, i, ⟨hname, hi, by simpa using hdeclares⟩, h⟩
  · rintro ⟨name, i, ⟨hname, hi, hdeclares⟩, h⟩
    refine ⟨name, hname, i, hi, ?_⟩
    rwa [hdeclares, if_neg Bool.false_ne_true]

theorem scope_symbolOf (d : Document) (ids : List String) (e : Declaration) (id : String) :
    (symbolOf d ids (e, id)).scope = e.scope := rfl

section

variable {d : Document} {ids : List String}
  (hlen : ids.length = (Outline.ofText d.content).declarations.length)
include hlen

theorem mem_declared_ofOutline {k : Nat} {e : Declaration}
    (hk : (Outline.ofText d.content).declarations[k]? = some e) :
    ∃ id, ids[k]? = some id ∧
      symbolOf d ids (e, id) ∈ (ofOutline d (Outline.ofText d.content) ids).declared := by
  have hlt : k < ids.length := hlen ▸ (List.getElem?_eq_some_iff.mp hk).1
  refine ⟨_, List.getElem?_eq_getElem hlt, ?_⟩
  rw [declared_ofOutline]
  refine List.mem_map_of_mem (List.mem_of_getElem? (i := k) ?_)
  exact List.getElem?_zip_eq_some.mpr ⟨hk, List.getElem?_eq_getElem hlt⟩

/-- **The caller at an offset is who makes a call there.** -/
theorem callerAt_ofOutline {i : Nat} (hi : WordStart d.content i)
    (hbehind : ¬ BehindBrace d.content i) :
    ∃ x, (ofOutline d (Outline.ofText d.content) ids).callerAt
        ((LineIndex.ofText d.content).positionOf i) = some x ∧ CalledFrom d ids i x.id := by
  have hcontains : ∀ e ∈ (Outline.ofText d.content).declarations,
      (e.scope.contains ((LineIndex.ofText d.content).positionOf i) = true ↔
        e.Covers d.content i) := by
    intro e he
    obtain ⟨before, after, hsplit⟩ := List.append_of_mem he
    exact (Outline.stands_of_mem he).contains_scope_iff (Outline.placed_of_mem _ hsplit).named hi
      fun h => hbehind ⟨e, he, h⟩
  have henc := encloses_enclosing (ofOutline d (Outline.ofText d.content) ids).declared
    ((LineIndex.ofText d.content).positionOf i)
  rw [callerAt]
  cases hbest : enclosing (ofOutline d (Outline.ofText d.content) ids).declared
      ((LineIndex.ofText d.content).positionOf i) with
  | none =>
    refine ⟨_, rfl, .file fun e he hcovers => ?_⟩
    obtain ⟨k, hk⟩ := List.mem_iff_getElem?.mp he
    obtain ⟨id, -, hmem⟩ := mem_declared_ofOutline hlen hk
    rw [hbest] at henc
    cases henc with
    | nothing hnone =>
      have hout := hnone _ hmem
      rw [scope_symbolOf, (hcontains e he).mpr hcovers] at hout
      cases hout
  | some x =>
    rw [hbest] at henc
    have hx := henc.mem
    rw [declared_ofOutline] at hx
    obtain ⟨⟨e, id⟩, hzip, rfl⟩ := List.mem_map.mp hx
    obtain ⟨k, hk⟩ := List.mem_iff_getElem?.mp hzip
    obtain ⟨hek, hidk⟩ := List.getElem?_zip_eq_some.mp hk
    have he := List.mem_of_getElem? hek
    have hin := henc.contains
    rw [scope_symbolOf] at hin
    refine ⟨_, rfl, .declaration hek hidk ((hcontains e he).mp hin) ?_⟩
    intro e' he' hcovers' hne
    obtain ⟨k', hk'⟩ := List.mem_iff_getElem?.mp he'
    obtain ⟨id', -, hmem'⟩ := mem_declared_ofOutline hlen hk'
    have hle := henc.start_le hmem' ((scope_symbolOf ..).symm ▸ (hcontains e' he').mpr hcovers')
    rw [scope_symbolOf, scope_symbolOf, (Outline.stands_of_mem he').start_scope,
      (Outline.stands_of_mem he).start_scope,
      LineIndex.positionOf_le_iff (LineIndex.ascending_ofText _)] at hle
    exact Nat.lt_of_le_of_ne hle fun h => hne (Outline.eq_of_nameOffset_eq he' he h)

end

/-- **Calls are made by the declaration around them.**  In the snapshot of a document, made with the
ids that a lineage assigns, the calls are those that the counted occurrences make.  An occurrence
that is not directly behind the closing brace of a declaration makes them from the declaration named
last among those that cover it, and from the file if none does. -/
theorem callers_cover (l : Lineage) (previous : Option Snapshot) {d : Document} {s : Snapshot}
    {ids : List String}
    (hids : (l.assign (Outline.ofText d.content).declarations previous).1 = .ok ids)
    (hs : ofOutline d (Outline.ofText d.content) ids = s) :
    (∀ edge, edge ∈ s.callEdges ↔ ∃ name i, s.Counts name i ∧ edge ∈ s.edgesAt name i) ∧
    ∀ name i, s.Counts name i → ¬ BehindBrace d.content i →
      ∃ caller, CalledFrom d ids i caller ∧
        s.edgesAt name i =
          (s.callables.filter (·.name = name)).map fun callee => ⟨caller, callee.id⟩ := by
  refine ⟨mem_callEdges_iff s, fun name i hcounts hbehind => ?_⟩
  have hsource : s.source = d.content := hs ▸ rfl
  have hstart := wordStart_of_mem_callOffsets hcounts.found
  rw [hsource] at hstart
  obtain ⟨x, hx, hfrom⟩ := callerAt_ofOutline (Lineage.length_of_assign hids) hstart hbehind
  refine ⟨x.id, hfrom, ?_⟩
  rw [edgesAt, hsource, ← hs, hx]

/-- The first version of a file. -/
def firstVersion (text : String) : Document := ⟨"a.ts", text.toList, "typescript", 1⟩

/-- The snapshot of the first version of a file. -/
def firstSnapshot (text : String) (ids : List String) : Snapshot :=
  ofOutline (firstVersion text) (Outline.ofText text.toList) ids

/-- A method that calls a function. -/
def methodCall : String := "class K \x7b\n" ++ "  m() { f (); }\n" ++ "\x7d\n" ++ "function f() {}"

/-- The class and its method both cover the call, and the method makes it. -/
theorem methodCall_covered :
    let ids := ["a.ts::K@1", "a.ts::m@a.ts::K@1@2", "a.ts::f@4"]
    (firstSnapshot methodCall ids).Counts "f" 18 ∧
      CalledFrom (firstVersion methodCall) ids 18 "a.ts::m@a.ts::K@1@2" := by
  intro ids
  have hcounts : (firstSnapshot methodCall ids).Counts "f" 18 := by decide +kernel
  obtain ⟨caller, hfrom, hedges⟩ := (callers_cover (.new "a.ts" 10) none
    (by decide +kernel) rfl).2 "f" 18 hcounts (by decide +kernel)
  have hedge : (firstSnapshot methodCall ids).edgesAt "f" 18 =
      [⟨"a.ts::m@a.ts::K@1@2", "a.ts::f@4"⟩] := by decide +kernel
  -- the method is the caller of the only edge
  have hmem : (⟨"a.ts::m@a.ts::K@1@2", "a.ts::f@4"⟩ : Edge) ∈ _ :=
    hedges ▸ hedge ▸ List.mem_singleton_self _
  obtain ⟨callee, -, heq⟩ := List.mem_map.mp hmem
  obtain rfl : caller = "a.ts::m@a.ts::K@1@2" := congrArg Edge.caller heq
  exact ⟨hcounts, hfrom⟩

/-- An occurrence of `name` in no body that still makes a call from a declaration. -/
def StrayCall (text : String) (ids : List String) (name : String) (i : Nat) (edge : Edge) : Prop :=
  ((Lineage.new "a.ts" 10).assign (Outline.ofText text.toList).declarations none).1 = .ok ids ∧
    (firstSnapshot text ids).Counts name i ∧
    (∀ e ∈ (Outline.ofText text.toList).declarations, ¬ e.BodyCovers text.toList i) ∧
    (firstSnapshot text ids).edgesAt name i = [edge] ∧
    edge.caller ≠ fileSymbolId "a.ts"

instance (text : String) (ids : List String) (name : String) (i : Nat) (edge : Edge) :
    Decidable (StrayCall text ids name i edge) :=
  inferInstanceAs (Decidable (_ ∧ _ ∧ _ ∧ _ ∧ _))

/-- Calls in no body are not all made by the file: one is made by the class without a body at whose
name it stands, one by the function whose closing brace stands directly before it. -/
theorem callers_beside_bodies :
    StrayCall "class f();\nfunction f() {}" ["a.ts::f@1", "a.ts::f@2"] "f" 6
        ⟨"a.ts::f@1", "a.ts::f@2"⟩ ∧
      StrayCall "function a() {}b()\nfunction b() {}" ["a.ts::a@1", "a.ts::b@2"] "b" 15
        ⟨"a.ts::a@1", "a.ts::b@2"⟩ := by
  decide +kernel

end Snapshot

end SymbolAtlas
