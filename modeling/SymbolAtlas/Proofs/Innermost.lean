import SymbolAtlas.Proofs.CallSites

/-!
# The innermost declaration around a position

Among the symbols whose scope contains a position, the search takes the last of those that start
latest, whatever their scopes are (`enclosing_eq_some_iff`).  That a scope starts latest says little
about spans in general: they may overlap, end before they start, or be the same.

The scopes of a snapshot are better behaved.  They start on different lines, and of two that contain
the same position the earlier one contains the other (`Outline.scope_containsSpan_of_contains`).  So
the scope that starts latest lies in all the others, and what is found is the innermost declaration
(`Session.finds_innermost`).
-/

namespace SymbolAtlas

/-! ### Any symbols -/

theorem enclosing_eq_none_iff {symbols : List Symbol} {p : Position} :
    enclosing symbols p = none ↔ ∀ y ∈ symbols, y.scope.contains p = false := by
  have henc := encloses_enclosing symbols p
  constructor
  · intro hnone
    rw [hnone] at henc
    cases henc with
    | nothing h => exact h
  · intro h
    cases hbest : enclosing symbols p with
    | none => rfl
    | some x =>
      rw [hbest] at henc
      have hx := henc.contains
      rw [h x henc.mem] at hx
      cases hx

/-- A symbol that starts latest is not listed behind the last one that does. -/
theorem Encloses.notMem_after {symbols before after : List Symbol} {p : Position} {x y : Symbol}
    (hsplit : symbols = before ++ x :: after) (hx : x.scope.contains p = true)
    (hafter : ∀ z ∈ after, z.scope.contains p = true → x.scope.start.le z.scope.start = false)
    (h : Encloses symbols p (some y)) : y ∉ after := by
  intro hy
  have hle := h.start_le (y := x) (by simp [hsplit]) hx
  rw [hafter y hy h.contains] at hle
  cases hle

/-- There is one last symbol that starts latest, even if it is listed more than once. -/
theorem Encloses.unique {symbols : List Symbol} {p : Position} {x y : Symbol}
    (h : Encloses symbols p (some x)) (h' : Encloses symbols p (some y)) : x = y := by
  cases id h with
  | @latest before after _ hsplit hx _ hafter =>
    cases id h' with
    | @latest before' after' _ hsplit' hy _ hafter' =>
      rcases List.append_eq_append_iff.mp (hsplit.symm.trans hsplit') with
        ⟨between, -, hcons⟩ | ⟨between, -, hcons⟩
      · cases between with
        | nil => exact (List.cons.inj hcons).1
        | cons z between =>
          refine absurd ?_ (notMem_after hsplit hx hafter h')
          rw [(List.cons.inj hcons).2]
          simp
      · cases between with
        | nil => exact (List.cons.inj hcons).1.symm
        | cons z between =>
          refine absurd ?_ (notMem_after hsplit' hy hafter' h)
          rw [(List.cons.inj hcons).2]
          simp

theorem enclosing_eq_some_iff {symbols : List Symbol} {p : Position} {x : Symbol} :
    enclosing symbols p = some x ↔ Encloses symbols p (some x) := by
  have henc := encloses_enclosing symbols p
  constructor
  · intro hx
    rwa [hx] at henc
  · intro h
    cases hbest : enclosing symbols p with
    | none =>
      have hx := h.contains
      rw [enclosing_eq_none_iff.mp hbest x h.mem] at hx
      cases hx
    | some y =>
      rw [hbest] at henc
      rw [henc.unique h]

/-! ### Symbols one inside another -/

/-- Of the symbols whose scope contains the position, each other one starts before this one and has
its scope inside. -/
structure Innermost (symbols : List Symbol) (p : Position) (x : Symbol) : Prop where
  mem : x ∈ symbols
  contains : x.scope.contains p = true
  inside : ∀ y ∈ symbols, y.scope.contains p = true → y ≠ x →
    y.scope.start.Before x.scope.start ∧ y.scope.containsSpan x.scope = true

/-- Scopes start one after the other, and the earlier one of two around a position contains the
later one. -/
def Nested (symbols : List Symbol) : Prop :=
  symbols.Pairwise fun x y => x.scope.start.Before y.scope.start ∧
    ∀ p, x.scope.contains p = true → y.scope.contains p = true →
      x.scope.containsSpan y.scope = true

theorem Position.Before.le {p q : Position} (h : p.Before q) : p.le q = true := by
  rw [Position.le_iff]
  unfold Position.Before at h
  omega

theorem Position.Before.asymm {p q : Position} (h : p.Before q) : ¬ q.Before p := by
  unfold Position.Before at *
  omega

namespace Nested

variable {symbols : List Symbol} {p : Position} {x : Symbol}

/-- **Among nested scopes the one that starts latest is innermost.** -/
theorem innermost (h : Nested symbols) (hx : Encloses symbols p (some x)) :
    Innermost symbols p x := by
  refine ⟨hx.mem, hx.contains, fun y hy hyp hne => ?_⟩
  cases hx with
  | @latest before after _ hsplit hxp _ hafter =>
    subst hsplit
    obtain ⟨-, hback, hacross⟩ := List.pairwise_append.mp h
    rw [List.mem_append, List.mem_cons] at hy
    rcases hy with hy | rfl | hy
    · obtain ⟨hstart, hinside⟩ := hacross y hy x (List.mem_cons_self ..)
      exact ⟨hstart, hinside p hyp hxp⟩
    · exact absurd rfl hne
    · -- a scope further on starts later, but none that contains the position does
      have hle := ((List.pairwise_cons.mp hback).1 y hy).1.le
      rw [hafter y hy hyp] at hle
      cases hle

/-- Among nested scopes the enclosing one is the innermost. -/
theorem enclosing_eq_some_iff_innermost (h : Nested symbols) :
    enclosing symbols p = some x ↔ Innermost symbols p x := by
  constructor
  · exact fun hx => h.innermost (enclosing_eq_some_iff.mp hx)
  · intro hx
    cases hbest : enclosing symbols p with
    | none =>
      have hxp := hx.contains
      rw [enclosing_eq_none_iff.mp hbest x hx.mem] at hxp
      cases hxp
    | some y =>
      have hy := h.innermost (enclosing_eq_some_iff.mp hbest)
      by_contra hne
      have hyx : y ≠ x := fun heq => hne (congrArg some heq)
      exact (hx.inside y hy.mem hy.contains hyx).1.asymm
        (hy.inside x hx.mem hx.contains hyx.symm).1

end Nested

/-! ### Declarations of a text -/

namespace Outline

theorem start_scope_before {t : Text} {d e : Declaration} (hd : d ∈ (ofText t).declarations)
    (he : e ∈ (ofText t).declarations) (hline : d.line < e.line) :
    d.scope.start.Before e.scope.start := by
  rw [(stands_of_mem hd).start_scope, (stands_of_mem he).start_scope, (stands_of_mem hd).start,
    (stands_of_mem he).start]
  exact Or.inl hline

/-- **Of two scopes around a position the earlier one contains the later one**, since it does not
end before the position. -/
theorem scope_containsSpan_of_contains {t : Text} {d e : Declaration}
    (hd : d ∈ (ofText t).declarations) (he : e ∈ (ofText t).declarations) (hline : d.line < e.line)
    {p : Position} (hdp : d.scope.contains p = true) (hep : e.scope.contains p = true) :
    d.scope.containsSpan e.scope = true := by
  have hstands := stands_of_mem hd
  have hstands' := stands_of_mem he
  have hstop := (Span.contains_iff.mp hdp).2
  have hstart := (Span.contains_iff.mp hep).1
  rw [Position.le_iff] at hstop hstart
  cases hlast : d.bodyEnd? t with
  | none =>
    -- the scope is a name, and the other one starts on a later line
    rw [hstands.stop_scope_of_no_body hlast, hstands.stop] at hstop
    rw [hstands'.start_scope, hstands'.start] at hstart
    simp only [Declaration.selection, Span.start, Span.stop] at hstop hstart
    omega
  | some last =>
    rcases Nat.lt_or_ge last (e.nameOffset t) with hout | hin
    · have hbefore := scope_before hd he hlast hout
      unfold Position.Before at hbefore
      omega
    · exact hstands.scope_containsSpan hstands' (isName_of_mem he) hline hlast hin

end Outline

/-- The scopes of a snapshot are nested. -/
theorem Snapshot.DrawnFrom.nested {c : Snapshot} {d : Document} {ids : List String}
    (h : c.DrawnFrom d ids) : Nested c.declared := by
  rw [Nested, h.declared, List.pairwise_map]
  have hlines := Outline.line_lt d.content
  rw [← h.map_fst_zip, List.pairwise_map] at hlines
  refine hlines.imp_of_mem fun {a b} ha hb hline => ?_
  have hd := (List.of_mem_zip ha).1
  have he := (List.of_mem_zip hb).1
  exact ⟨Outline.start_scope_before hd he hline,
    fun p => Outline.scope_containsSpan_of_contains hd he hline⟩

/-! ### Sessions -/

namespace Session

/-- **What is found around a position is the innermost declaration.**  Of any symbols the last one
is found whose scope contains the position and starts latest, and none if no scope contains it.  At
every moment of a session this is, for the declarations of a file, the one that starts after all
others around the position and lies inside of them.  It is what is described there, and what makes a
call there; the file makes it if there is none. -/
theorem finds_innermost :
    (∀ (symbols : List Symbol) (p : Position),
        (enclosing symbols p = none ↔ ∀ y ∈ symbols, y.scope.contains p = false) ∧
          ∀ x, enclosing symbols p = some x ↔ Encloses symbols p (some x)) ∧
      ∀ s : Session, s.Moment → ∀ f c, s.snapshot? f = some c → ∀ p,
        (∀ x, enclosing c.declared p = some x ↔ Innermost c.declared p x) ∧
          s.describeAt f p = enclosing c.declared p ∧
          ∀ x, c.callerAt p = some x ↔ Innermost c.declared p x ∨
            (∀ y ∈ c.declared, y.scope.contains p = false) ∧ x ∈ c.symbols ∧ x.kind = .file := by
  refine ⟨fun symbols p => ⟨enclosing_eq_none_iff, fun x => enclosing_eq_some_iff⟩,
    fun s h f c hc p => ?_⟩
  obtain ⟨d, ids, -, hdrawn⟩ := h.drawn f c hc
  have hinner := fun x => hdrawn.nested.enclosing_eq_some_iff_innermost (p := p) (x := x)
  refine ⟨hinner, by rw [describeAt, hc, Option.bind_some], fun x => ?_⟩
  rw [← hinner, ← enclosing_eq_none_iff]
  have hcaller := fun hx => (h.wellFormed hc).callerAt_eq_some_iff (p := p) (x := x) hx
  constructor
  · intro hx
    have hmem := Snapshot.mem_of_callerAt hx
    exact ((hcaller hmem).mp hx).imp_right fun ⟨hnone, hkind⟩ => ⟨hnone, hmem, hkind⟩
  · rintro (hx | ⟨hnone, hmem, hkind⟩)
    · exact (hcaller (List.mem_filter.mp (Snapshot.mem_of_enclosing hx)).1).mpr (Or.inl hx)
    · exact (hcaller hmem).mpr (Or.inr ⟨hnone, hkind⟩)

/-- A class with a method, a function that is declared inside of the method, and a call behind
it. -/
def functionInMethod : String :=
  "class K \x7b\n" ++ "  m() \x7b\n" ++ "    function f() \x7b\n" ++ "      return g() \x7d\n" ++
    "    return g() \x7d \x7d\n" ++ "function g() {}"

/-- Three declarations are around the first call and two around the second one, and each is made by
the innermost. -/
theorem functionInMethod_innermost :
    ∃ c, (opened functionInMethod).snapshot? "a.ts" = some c ∧
      (c.declared.filter (·.scope.contains ⟨4, 14⟩)).map Symbol.name = ["K", "m", "f"] ∧
      (c.declared.filter (·.scope.contains ⟨5, 12⟩)).map Symbol.name = ["K", "m"] ∧
      (∃ x, x.name = "f" ∧ Innermost c.declared ⟨4, 14⟩ x ∧ c.callerAt ⟨4, 14⟩ = some x) ∧
      ∃ x, x.name = "m" ∧ Innermost c.declared ⟨5, 12⟩ x ∧ c.callerAt ⟨5, 12⟩ = some x := by
  have hnames : ((opened functionInMethod).snapshot? "a.ts").map (fun c =>
      ((c.declared.filter (·.scope.contains ⟨4, 14⟩)).map Symbol.name,
        (c.declared.filter (·.scope.contains ⟨5, 12⟩)).map Symbol.name,
        (enclosing c.declared ⟨4, 14⟩).map Symbol.name,
        (enclosing c.declared ⟨5, 12⟩).map Symbol.name)) =
      some (["K", "m", "f"], ["K", "m"], some "f", some "m") := by decide +kernel
  obtain ⟨c, hc, heq⟩ := Option.map_eq_some_iff.mp hnames
  simp only [Prod.mk.injEq] at heq
  obtain ⟨hfirst, hsecond, hf, hm⟩ := heq
  have hfound := finds_innermost.2 _ (moment_opened functionInMethod) "a.ts" c hc
  have hpick : ∀ {p name}, (enclosing c.declared p).map Symbol.name = some name →
      ∃ x, x.name = name ∧ Innermost c.declared p x ∧ c.callerAt p = some x := by
    intro p name h
    obtain ⟨x, hx, rfl⟩ := Option.map_eq_some_iff.mp h
    have hinner := ((hfound p).1 x).mp hx
    exact ⟨x, rfl, hinner, ((hfound p).2.2 x).mpr (Or.inl hinner)⟩
  exact ⟨c, hc, hfirst, hsecond, hpick hf, hpick hm⟩

end Session
end SymbolAtlas
