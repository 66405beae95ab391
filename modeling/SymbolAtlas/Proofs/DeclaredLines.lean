import SymbolAtlas.Proofs.LineGrammar
import SymbolAtlas.Proofs.Places

/-!
# What the lines of a text declare

`Outline.Declares lines i kind klass n` says by the line grammar alone what line `i` declares, with
the line of its class in the case of a method: the last class line above it, if no blank line stands
in between (`Outline.ClassOpen`).  `Outline.recognises_line_grammar` says that the outline of a text
lists just these declarations, in line order and at most one per line.

The outline is made in one pass that carries the index of the open class.  The invariant of the pass
is that this index leads to the class line that is open by the grammar (`Outline.PointsTo`), and one
line keeps it (`Outline.classOpen_concat`, `Outline.PointsTo.next`).
-/

namespace SymbolAtlas

open LineGrammar

namespace Outline

variable {klass : Option Nat} {l : Text} {ds : List Declaration}

/-! ### Declarations by the grammar -/

/-- Line `j` is the last class line of `before`, and no line after it is blank. -/
structure ClassOpen (before : List Text) (j : Nat) : Prop where
  class_line : ∃ l, before[j]? = some l ∧ IsClassLine l
  later : ∀ k l, j < k → before[k]? = some l → l ∉ blanks ∧ ¬ IsClassLine l

/-- What line `i` declares: its kind, the line of its class, and its name with its place. -/
inductive Declares (lines : List Text) (i : Nat) : Kind → Option Nat → Naming → Prop
  | klass {l : Text} {n : Naming} (hl : lines[i]? = some l) (hn : n.Fits classFront ⊤ l) :
      Declares lines i .klass none n
  | function {l : Text} {n : Naming} (hl : lines[i]? = some l) (hclass : ¬ IsClassLine l)
      (hn : n.Fits functionFront ⊤ l) : Declares lines i .function none n
  | method {l : Text} {n : Naming} {j : Nat} (hl : lines[i]? = some l) (hclass : ¬ IsClassLine l)
      (hfunction : ¬ IsFunctionLine l) (hn : n.Fits methodFront methodBack l)
      (hword : n.name ∉ nonMethodWords) (hstatement : l ∉ statement)
      (hopen : ClassOpen (lines.take i) j) : Declares lines i .method (some j) n

theorem Declares.lt_length {lines : List Text} {i : Nat} {kind : Kind} {n : Naming}
    (h : Declares lines i kind klass n) : i < lines.length := by
  cases h with
  | klass hl | function hl | method hl => exact (List.getElem?_eq_some_iff.mp hl).1

theorem isClassLine_iff_ofLine : IsClassLine l ↔ ∃ n, LineKind.ofLine l = .classLine n := by
  simp only [LineKind.ofLine_eq_classLine_iff, IsClassLine]

theorem classOpen_concat_iff {before : List Text} {j : Nat} :
    ClassOpen (before ++ [l]) j ↔ j = before.length ∧ IsClassLine l ∨
      ClassOpen before j ∧ l ∉ blanks ∧ ¬ IsClassLine l := by
  have hlast : (before ++ [l])[before.length]? = some l := by simp
  constructor
  · rintro ⟨⟨l', hl', hclass⟩, hlater⟩
    have hj : j < before.length + 1 := by
      simpa using (List.getElem?_eq_some_iff.mp hl').1
    rcases Nat.lt_succ_iff_lt_or_eq.mp hj with hj | rfl
    · rw [List.getElem?_append_left hj] at hl'
      refine Or.inr ⟨⟨⟨l', hl', hclass⟩, fun k m hk hm => hlater k m hk ?_⟩,
        hlater before.length l hj hlast⟩
      rw [List.getElem?_append_left (List.getElem?_eq_some_iff.mp hm).1, hm]
    · obtain rfl := Option.some.inj (hl'.symm.trans hlast)
      exact Or.inl ⟨rfl, hclass⟩
  · rintro (⟨rfl, hclass⟩ | ⟨⟨⟨l', hl', hclass⟩, hlater⟩, hl⟩)
    · refine ⟨⟨l, hlast, hclass⟩, fun k m hk hm => ?_⟩
      have := (List.getElem?_eq_some_iff.mp hm).1
      simp at this
      omega
    · have hj := (List.getElem?_eq_some_iff.mp hl').1
      refine ⟨⟨l', by rw [List.getElem?_append_left hj, hl'], hclass⟩, fun k m hk hm => ?_⟩
      have hk' : k < before.length + 1 := by
        simpa using (List.getElem?_eq_some_iff.mp hm).1
      rcases Nat.lt_succ_iff_lt_or_eq.mp hk' with hk' | rfl
      · rw [List.getElem?_append_left hk'] at hm
        exact hlater k m hk hm
      · obtain rfl := Option.some.inj (hm.symm.trans hlast)
        exact hl

/-- The class that is open by the grammar goes on as `LineKind.openClass` says. -/
theorem classOpen_concat {before : List Text} (h : ∀ j, ClassOpen before j ↔ klass = some j)
    (l : Text) (j : Nat) :
    ClassOpen (before ++ [l]) j ↔
      (LineKind.ofLine l).openClass klass before.length = some j := by
  rw [classOpen_concat_iff, h j, isClassLine_iff_ofLine, ← LineKind.ofLine_eq_blankLine_iff]
  cases LineKind.ofLine l <;> simp [LineKind.openClass, eq_comm]

/-- What a line declares by the grammar is what is read off it while the right class is open. -/
theorem declares_iff {lines : List Text} {i : Nat} (hl : lines[i]? = some l)
    (hopen : ∀ j, ClassOpen (lines.take i) j ↔ klass = some j) {kind : Kind} {k : Option Nat}
    {n : Naming} :
    Declares lines i kind k n ↔
      (LineKind.ofLine l).declared klass = some (kind, k, n) := by
  constructor
  · intro h
    cases h with
    | klass hl' hn =>
      obtain rfl := Option.some.inj (hl.symm.trans hl')
      rw [LineKind.ofLine_eq_classLine_iff.mpr hn, LineKind.declared]
    | function hl' hclass hn =>
      obtain rfl := Option.some.inj (hl.symm.trans hl')
      rw [LineKind.ofLine_eq_functionLine_iff.mpr ⟨hclass, hn⟩, LineKind.declared]
    | method hl' hclass hfunction hn hword hstatement hj =>
      obtain rfl := Option.some.inj (hl.symm.trans hl')
      rw [LineKind.ofLine_eq_methodLine_iff.mpr ⟨hclass, hfunction, hn, hword, hstatement⟩,
        (hopen _).mp hj, LineKind.declared, Option.map_some]
  · intro h
    cases hkind : LineKind.ofLine l with
    | classLine m =>
      simp only [hkind, LineKind.declared, Option.some.injEq, Prod.mk.injEq] at h
      obtain ⟨rfl, rfl, rfl⟩ := h
      exact .klass hl (LineKind.ofLine_eq_classLine_iff.mp hkind)
    | functionLine m =>
      simp only [hkind, LineKind.declared, Option.some.injEq, Prod.mk.injEq] at h
      obtain ⟨rfl, rfl, rfl⟩ := h
      obtain ⟨hclass, hn⟩ := LineKind.ofLine_eq_functionLine_iff.mp hkind
      exact .function hl hclass hn
    | methodLine m =>
      simp only [hkind, LineKind.declared, Option.map_eq_some_iff, Prod.mk.injEq] at h
      obtain ⟨j, hj, rfl, rfl, rfl⟩ := h
      obtain ⟨hclass, hfunction, hn, hword, hstatement⟩ :=
        LineKind.ofLine_eq_methodLine_iff.mp hkind
      exact .method hl hclass hfunction hn hword hstatement ((hopen j).mpr hj)
    | blankLine | otherLine => simp [hkind, LineKind.declared] at h

/-! ### Declarations of the outline -/

/-- The index of a declaration of a class, and the line of that class. -/
inductive PointsTo (ds : List Declaration) : Option Nat → Option Nat → Prop
  | nothing : PointsTo ds none none
  | klass {c j : Nat} {d : Declaration} (hd : ds[c]? = some d) (hkind : d.kind = .klass)
      (hline : d.line = j + 1) : PointsTo ds (some c) (some j)

theorem PointsTo.append {c : Option Nat} (h : PointsTo ds c klass) (more : List Declaration) :
    PointsTo (ds ++ more) c klass := by
  cases h with
  | nothing => exact .nothing
  | klass hd hkind hline =>
    refine .klass ?_ hkind hline
    rw [List.getElem?_append_left (List.getElem?_eq_some_iff.mp hd).1, hd]

theorem PointsTo.unique {c k k' : Option Nat} (h : PointsTo ds c k) (h' : PointsTo ds c k') :
    k = k' := by
  cases h with
  | nothing => cases h'; rfl
  | klass hd hkind hline =>
    cases h' with
    | klass hd' hkind' hline' =>
      obtain rfl := Option.some.inj (hd.symm.trans hd')
      congr 1
      omega

/-- What is declared inside the open class is the same by its index and by its line. -/
theorem PointsTo.declared {current : Option Nat} (h : PointsTo ds current klass) (x : LineKind) :
    Option.Rel (fun r s => r.1 = s.1 ∧ PointsTo ds r.2.1 s.2.1 ∧ r.2.2 = s.2.2)
      (x.declared current) (x.declared klass) := by
  cases x with
  | classLine n | functionLine n => exact .some ⟨rfl, .nothing, rfl⟩
  | methodLine n =>
    cases h with
    | nothing => exact .none
    | klass hd hkind hline => exact .some ⟨rfl, .klass hd hkind hline, rfl⟩
  | blankLine | otherLine => exact .none

/-- **One line keeps the invariant**: below it, too, the index leads to the open class. -/
theorem PointsTo.next {done : List Declaration} {current : Option Nat}
    (h : PointsTo done current klass) (src : Source) (i : Nat) (above : List Text) (x : LineKind) :
    PointsTo
      (done ++ ((x.declared current).map fun r =>
        src.declaration r.1 r.2.1 (i + 1) above r.2.2).toList)
      (x.openClass current done.length) (x.openClass klass i) := by
  cases x with
  | classLine n => exact .klass List.getElem?_concat_length rfl rfl
  | functionLine n | methodLine n | otherLine => exact h.append _
  | blankLine => exact .nothing

end Outline

/-- The declaration says of line `i` that it declares this. -/
structure Declaration.Reports (ds : List Declaration) (i : Nat) (kind : Kind)
    (klass : Option Nat) (n : Naming) (d : Declaration) : Prop where
  line : d.line = i + 1
  kind : d.kind = kind
  container : Outline.PointsTo ds d.container klass
  name : d.name = n.name
  column : d.column = n.before + 1

theorem Declaration.Reports.unique {ds : List Declaration} {d : Declaration} {i i' : Nat}
    {kind kind' : Kind} {klass klass' : Option Nat} {n n' : Naming}
    (h : d.Reports ds i kind klass n) (h' : d.Reports ds i' kind' klass' n') :
    i = i' ∧ kind = kind' ∧ klass = klass' ∧ n = n' := by
  have hline := h.line.symm.trans h'.line
  have hcolumn := h.column.symm.trans h'.column
  have hname := h.name.symm.trans h'.name
  refine ⟨by omega, h.kind.symm.trans h'.kind, h.container.unique h'.container, ?_⟩
  have hbefore : n.before = n'.before := by omega
  cases n
  cases n'
  exact congr (congrArg Naming.mk hname) hbefore

namespace Outline

/-- The declarations `ds`, which follow those `done`, are those of the lines from number `first`
on. -/
structure Lists (lines : List Text) (first : Nat) (done ds : List Declaration) : Prop where
  sound : ∀ d ∈ ds, ∃ i kind klass n, Declares lines i kind klass n ∧
    d.Reports (done ++ ds) i kind klass n
  complete : ∀ i kind klass n, first ≤ i → Declares lines i kind klass n →
    ∃ d ∈ ds, d.Reports (done ++ ds) i kind klass n

theorem Lists.skip {lines : List Text} {first : Nat} {done ds : List Declaration}
    (h : Lists lines (first + 1) done ds)
    (hnone : ∀ kind klass n, ¬ Declares lines first kind klass n) : Lists lines first done ds where
  sound := h.sound
  complete i kind klass n hi hdeclares := by
    rcases Nat.eq_or_lt_of_le hi with rfl | hi
    · exact absurd hdeclares (hnone kind klass n)
    · exact h.complete i kind klass n hi hdeclares

theorem Lists.cons {lines : List Text} {first : Nat} {done ds : List Declaration} {d : Declaration}
    {kind : Kind} {klass : Option Nat} {n : Naming} (h : Lists lines (first + 1) (done ++ [d]) ds)
    (hone : ∀ kind' klass' n', Declares lines first kind' klass' n' ↔
      kind = kind' ∧ klass = klass' ∧ n = n')
    (hd : d.Reports (done ++ d :: ds) first kind klass n) : Lists lines first done (d :: ds) := by
  have hall : done ++ [d] ++ ds = done ++ d :: ds := List.append_cons .. |>.symm
  obtain ⟨hsound, hcomplete⟩ := h
  rw [hall] at hsound hcomplete
  constructor
  · intro e he
    rcases List.mem_cons.mp he with rfl | he
    · exact ⟨first, kind, klass, n, (hone kind klass n).mpr ⟨rfl, rfl, rfl⟩, hd⟩
    · exact hsound e he
  · intro i kind' klass' n' hi hdeclares
    rcases Nat.eq_or_lt_of_le hi with rfl | hi
    · obtain ⟨rfl, rfl, rfl⟩ := (hone kind' klass' n').mp hdeclares
      exact ⟨d, List.mem_cons_self, hd⟩
    · obtain ⟨e, he, hreports⟩ := hcomplete i kind' klass' n' hi hdeclares
      exact ⟨e, List.mem_cons_of_mem d he, hreports⟩

/-- **Every line below `before` is declared as the grammar has it.**  The induction is on the lines
that are left; the index of the open class leads to the class line that is open. -/
theorem Source.lists_declarations (src : Source) (rest : List Text) :
    ∀ (before above : List Text) (current klass : Option Nat) (done : List Declaration),
      PointsTo done current klass → (∀ j, ClassOpen before j ↔ klass = some j) →
      Lists (before ++ rest) before.length done
        (src.declarations (before.length + 1) above current done.length rest) := by
  induction rest with
  | nil =>
    intro before above current klass done _ _
    refine ⟨fun d hd => by simp [Source.declarations] at hd, fun i kind k n hi h => ?_⟩
    have hlt := h.lt_length
    rw [List.append_nil] at hlt
    omega
  | cons l rest ih =>
    intro before above current klass done hpoints hopen
    have hdeclares : ∀ kind k n, Declares (before ++ l :: rest) before.length kind k n ↔
        (LineKind.ofLine l).declared klass = some (kind, k, n) := fun kind k n =>
      declares_iff (by simp) (by rwa [List.take_left])
    have hnext := ih (before ++ [l]) (l :: above) _ _ _
      (hpoints.next src before.length above (LineKind.ofLine l)) (classOpen_concat hopen l)
    have hrel := hpoints.declared (LineKind.ofLine l)
    rw [← List.append_cons, List.length_append, List.length_singleton] at hnext
    rw [Source.declarations_line]
    generalize (LineKind.ofLine l).declared current = read at hnext hrel ⊢
    generalize (LineKind.ofLine l).declared klass = found at hdeclares hrel
    cases hrel with
    | none =>
      simp only [Option.map_none, Option.toList_none, List.append_nil, List.nil_append] at hnext ⊢
      refine hnext.skip fun kind k n h => ?_
      exact Option.some_ne_none _ ((hdeclares kind k n).mp h).symm
    | @some r s hrel =>
      obtain ⟨kind, c, n⟩ := r
      obtain ⟨_, k, _⟩ := s
      obtain ⟨rfl, hpoint, rfl⟩ : kind = _ ∧ PointsTo done c k ∧ n = _ := hrel
      simp only [Option.map_some, Option.toList_some, List.length_append, List.singleton_append]
        at hnext ⊢
      refine hnext.cons (fun kind' k' n' => ?_) ⟨rfl, rfl, hpoint.append _, rfl, rfl⟩
      change _ ↔ kind = kind' ∧ k = k' ∧ n = n'
      rw [hdeclares kind' k' n', Option.some.injEq, Prod.mk.injEq, Prod.mk.injEq]

/-- **The outline of a text is read off its lines by the line grammar.**  It has at most one
declaration for each line, in line order, and it declares what the lines declare, neither more nor
less; a line bears one name of each kind at most. -/
theorem recognises_line_grammar (t : Text) :
    ((ofText t).declarations.map Declaration.line).Pairwise (· < ·) ∧
      (∀ d ∈ (ofText t).declarations, ∃ i kind klass n,
        d.Reports (ofText t).declarations i kind klass n) ∧
      (∀ i kind klass n,
        (∃ d ∈ (ofText t).declarations, d.Reports (ofText t).declarations i kind klass n) ↔
          Declares t.lines i kind klass n) ∧
      ∀ (l : Text) (m n : Naming),
        (m.Fits classFront ⊤ l → n.Fits classFront ⊤ l → m = n) ∧
        (m.Fits functionFront ⊤ l → n.Fits functionFront ⊤ l → m = n) ∧
        (m.Fits methodFront methodBack l → n.Fits methodFront methodBack l → m = n) := by
  have hlists : Lists t.lines 0 [] (ofText t).declarations :=
    (Source.ofText t).lists_declarations t.lines [] [] none none [] .nothing
      fun j => ⟨fun ⟨⟨l, hl, _⟩, _⟩ => by simp at hl, fun h => by simp at h⟩
  refine ⟨lines_sorted t, fun d hd => ?_, fun i kind klass n => ⟨?_, ?_⟩, fun l m n => ⟨?_, ?_, ?_⟩⟩
  · obtain ⟨i, kind, klass, n, -, h⟩ := hlists.sound d hd
    exact ⟨i, kind, klass, n, h⟩
  · rintro ⟨d, hd, h⟩
    obtain ⟨i', kind', klass', n', hdeclares, h'⟩ := hlists.sound d hd
    obtain ⟨rfl, rfl, rfl, rfl⟩ := h.unique h'
    exact hdeclares
  · exact hlists.complete i kind klass n (Nat.zero_le i)
  · exact Reader.reads_classLine.unique
  · exact Reader.reads_functionLine.unique
  · exact Reader.reads_methodLine.unique

/-- Words of the grammar that are names here, a statement, a blank line and a method without a
class. -/
def wordsAsNames : Text :=
  ("export default abstract class\u3000Shop\n  static (a)\n\tasync async(b)\n  if (a)\n" ++
    "  call(a);\n\n  lost()\nfunction*each").toList

theorem wordsAsNames_declares :
    Declares wordsAsNames.lines 2 .method (some 0) ⟨"async", 7⟩ ∧
      Declares wordsAsNames.lines 7 .function none ⟨"each", 9⟩ ∧
      (∀ kind klass n, ¬ Declares wordsAsNames.lines 6 kind klass n) ∧
      ∀ n : Naming, n.Fits methodFront methodBack "  static (a)".toList → n = ⟨"static", 2⟩ := by
  obtain ⟨-, -, hdeclares, hunique⟩ := recognises_line_grammar wordsAsNames
  have hds : (ofText wordsAsNames).declarations =
      [⟨"Shop", .klass, 1, 31, none, none, none, none⟩,
        ⟨"static", .method, 2, 3, some 0, none, none, none⟩,
        ⟨"async", .method, 3, 8, some 0, none, none, none⟩,
        ⟨"each", .function, 8, 10, none, none, none, none⟩] := by decide +kernel
  rw [hds] at hdeclares
  refine ⟨(hdeclares 2 _ _ _).mp ?_, (hdeclares 7 _ _ _).mp ?_, fun kind klass n h => ?_,
    fun n hn => ?_⟩
  · exact ⟨_, .tail _ (.tail _ (.head _)), rfl, rfl, .klass rfl rfl rfl, rfl, rfl⟩
  · exact ⟨_, .tail _ (.tail _ (.tail _ (.head _))), rfl, rfl, .nothing, rfl, rfl⟩
  · obtain ⟨d, hd, hreports⟩ := (hdeclares 6 kind klass n).mpr h
    have hline := hreports.line
    simp only [List.mem_cons, List.not_mem_nil, or_false] at hd
    rcases hd with rfl | rfl | rfl | rfl <;> exact absurd hline (by decide)
  · exact (hunique _ n _).2.2 hn (Reader.reads_methodLine.ofReader_eq_some_iff.mp (by decide))

end Outline
end SymbolAtlas
