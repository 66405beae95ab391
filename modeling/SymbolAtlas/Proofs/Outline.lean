import Mathlib.Data.List.TakeWhile
import SymbolAtlas.Outline.Declaration

/-!
# What every outline looks like

Whatever the text, each declaration of its outline bears a name of identifier characters, stands
on a line counted from 1, is a class, a function or a method, and has a container only if that is
a class further up in the list (`Declaration.Placed`).  `Outline.placed_of_mem` says so of the
declarations of any text, each against those before it, which is the order in which ids are
assigned to them.

Names come from readers of lines.  Each reader stops at an identifier character
(`Reader.StopsAtName`), and this passes from a reader to the ones built on it.
-/

namespace SymbolAtlas

variable {line : Text} {n : Naming}

/-- A name is a non-empty run of identifier characters. -/
def IsName (name : String) : Prop := name.toList ≠ [] ∧ ∀ c ∈ name.toList, isIdent c = true

theorem isIdent_of_isBlank {c : Char} (h : isBlank c = true) : isIdent c = false := by
  rw [← Bool.not_eq_true]
  intro hident
  obtain ha | rfl | rfl : c.isAlphanum = true ∨ c = '_' ∨ c = '$' := by
    simpa [isIdent, or_assoc] using hident
  · have hval : c.toNat = c.val.toNat := rfl
    change (decide (65 ≤ c.val ∧ c.val ≤ 90) || (decide (97 ≤ c.val) && decide (c.val ≤ 122)) ||
      (decide (48 ≤ c.val) && decide (c.val ≤ 57))) = true at ha
    simp only [Bool.or_eq_true, Bool.and_eq_true, decide_eq_true_eq, UInt32.le_iff_toNat_le,
      UInt32.reduceToNat] at ha
    simp only [isBlank, Bool.or_eq_true, Bool.and_eq_true, decide_eq_true_eq, beq_iff_eq] at h
    omega
  · exact absurd h (by decide)
  · exact absurd h (by decide)

/-- A word is read to its end if no identifier character follows. -/
theorem takeWhile_isIdent {w rest : Text} (hw : ∀ c ∈ w, isIdent c = true)
    (hrest : ∀ x, rest.head? = some x → isIdent x = false) :
    (w ++ rest).takeWhile isIdent = w := by
  rw [List.takeWhile_append_of_pos hw]
  cases rest with
  | nil => simp
  | cons x rest =>
    rw [List.takeWhile_cons_of_neg (by simp [hrest x rfl]), List.append_nil]

namespace Reader

variable {next : Reader}

/-- Wherever the reader stops, an identifier character follows. -/
def StopsAtName (r : Reader) : Prop :=
  ∀ t rest, r t = some rest → ∃ c u, rest = c :: u ∧ isIdent c = true

theorem stopsAtName_name : StopsAtName name := by
  intro t rest h
  unfold name at h
  split at h
  · split_ifs at h with hc
    exact ⟨_, _, (Option.some.inj h).symm, hc⟩
  · simp at h

theorem stopsAtName_calledName : StopsAtName calledName := by
  intro t rest h
  unfold calledName at h
  split at h
  · exact stopsAtName_name t rest h
  · simp at h

theorem StopsAtName.blanks (hn : StopsAtName next) : StopsAtName (blanks next) :=
  fun t rest h => hn (Text.trimLeft t) rest h

/-- A word is passed over on the way to a name. -/
theorem StopsAtName.word (hn : StopsAtName next) (w : Text) : StopsAtName (word w next) := by
  intro t rest h
  unfold Reader.word at h
  split at h
  · split_ifs at h
    exact hn _ rest h
  · simp at h

/-- So are words that may be missing. -/
theorem StopsAtName.optional (hn : StopsAtName next) (ws : List Text) :
    StopsAtName (optional ws next) := by
  intro t rest h
  rcases Option.or_eq_some_iff.mp h with h | ⟨-, h⟩
  · obtain ⟨w, -, hw⟩ := List.exists_of_findSome?_eq_some h
    exact hn.word w t rest hw
  · exact hn t rest h

theorem StopsAtName.functionWord (hn : StopsAtName next) : StopsAtName (functionWord next) := by
  intro t rest h
  unfold Reader.functionWord at h
  split at h
  · simp at h
  · split at h
    · exact hn _ rest h
    · split_ifs at h
      exact hn _ rest h

theorem stopsAtName_classLine : StopsAtName classLine :=
  (((stopsAtName_name.word _).optional _).optional _).optional _ |>.blanks

theorem stopsAtName_functionLine : StopsAtName functionLine :=
  ((stopsAtName_name.functionWord.optional _).optional _).optional _ |>.blanks

theorem stopsAtName_methodLine : StopsAtName methodLine :=
  ((stopsAtName_calledName.optional _).optional _).optional _ |>.blanks

end Reader

/-- A reader that stops at a name finds one. -/
theorem Naming.isName_of_ofReader {r : Reader} (hr : r.StopsAtName)
    (h : Naming.ofReader r line = some n) : IsName n.name := by
  obtain ⟨rest, hrest, rfl⟩ := Option.map_eq_some_iff.mp h
  obtain ⟨c, u, rfl, hc⟩ := hr line rest hrest
  refine ⟨by simp [hc], fun x hx => ?_⟩
  rw [String.toList_ofList] at hx
  exact List.mem_takeWhile_imp hx

/-- The naming a line declares, whatever it declares. -/
def LineKind.naming? : LineKind → Option Naming
  | .classLine n | .functionLine n | .methodLine n => some n
  | .blankLine | .otherLine => none

/-- What a line names is read off it by one of the three readers. -/
theorem LineKind.ofReader_of_ofLine (h : (LineKind.ofLine line).naming? = some n) :
    Naming.ofReader .classLine line = some n ∨ Naming.ofReader .functionLine line = some n ∨
      Naming.ofReader .methodLine line = some n := by
  unfold LineKind.ofLine at h
  split at h
  · rename_i n' hn'
    exact Or.inl (hn'.trans h)
  · split at h
    · rename_i n' hn'
      exact Or.inr (Or.inl (hn'.trans h))
    · split at h
      · rename_i n' hn'
        obtain rfl := Option.some.inj h
        exact Or.inr (Or.inr (Option.filter_eq_some_iff.mp hn').1)
      · split_ifs at h <;> simp [naming?] at h

/-- What a line names is a name. -/
theorem LineKind.isName_of_ofLine (h : (LineKind.ofLine line).naming? = some n) :
    IsName n.name := by
  rcases ofReader_of_ofLine h with h | h | h
  · exact Naming.isName_of_ofReader Reader.stopsAtName_classLine h
  · exact Naming.isName_of_ofReader Reader.stopsAtName_functionLine h
  · exact Naming.isName_of_ofReader Reader.stopsAtName_methodLine h

/-- What is known of a declaration from those `before` it. -/
structure Declaration.Placed (before : List Declaration) (d : Declaration) : Prop where
  named : IsName d.name
  line_pos : 1 ≤ d.line
  /-- A declaration never stands for a file, and just the methods have a container. -/
  kind : d.kind = .klass ∧ d.container = none ∨ d.kind = .function ∧ d.container = none ∨
    d.kind = .method ∧ d.container.isSome = true
  container : ∀ c, d.container = some c →
    ∃ k, before[c]? = some k ∧ k.kind = .klass ∧ k.container = none

/-- No declaration is that of the file. -/
theorem Declaration.Placed.kind_ne_file {before : List Declaration} {d : Declaration}
    (h : d.Placed before) : d.kind ≠ .file := by
  rcases h.kind with ⟨hk, -⟩ | ⟨hk, -⟩ | ⟨hk, -⟩ <;> rw [hk] <;> decide

namespace Outline

variable {d : Declaration}

/-- The open class, if there is one, is among the declarations `done`. -/
def OpenClass (done : List Declaration) (current : Option Nat) : Prop :=
  ∀ c, current = some c → ∃ k, done[c]? = some k ∧ k.kind = .klass ∧ k.container = none

/-- A class stays open with further declarations. -/
theorem OpenClass.append {done : List Declaration} {current : Option Nat}
    (h : OpenClass done current) (d : Declaration) : OpenClass (done ++ [d]) current := by
  intro c hc
  obtain ⟨k, hk, hkind⟩ := h c hc
  obtain ⟨hlt, -⟩ := List.getElem?_eq_some_iff.mp hk
  exact ⟨k, by rw [List.getElem?_append_left hlt, hk], hkind⟩

/-- A new class is open. -/
theorem openClass_new (done : List Declaration) (hd : d.kind = .klass) (hc : d.container = none) :
    OpenClass (done ++ [d]) (some done.length) := by
  intro c h
  obtain rfl := Option.some.inj h
  exact ⟨d, by simp, hd, hc⟩

/-- One more declaration in front of a list in which each is placed. -/
theorem placed_cons {done ds : List Declaration} (hd : d.Placed done)
    (hds : ∀ before e after, ds = before ++ e :: after → e.Placed (done ++ [d] ++ before)) :
    ∀ before e after, d :: ds = before ++ e :: after → e.Placed (done ++ before) := by
  intro before e after h
  cases before with
  | nil =>
    obtain ⟨rfl, -⟩ := List.cons.inj h
    rwa [List.append_nil]
  | cons b before =>
    obtain ⟨rfl, h'⟩ := List.cons.inj h
    simpa using hds before e after h'

/-- **Every declaration is placed after those before it**, on any lines and with any number of
declarations `done` already.  The induction is on the lines; the open class is among `done`. -/
theorem Source.placed_of_declarations (src : Source) (lines : List Text) :
    ∀ (line : Nat) (above : List Text) (current : Option Nat) (done : List Declaration),
      1 ≤ line → OpenClass done current →
      ∀ before d after, src.declarations line above current done.length lines =
        before ++ d :: after → d.Placed (done ++ before) := by
  induction lines with
  | nil =>
    intro line above current done _ _ before d after h
    simp [Source.declarations] at h
  | cons l lines ih =>
    intro line above current done hline hcur
    have hname : ∀ n, (LineKind.ofLine l).naming? = some n → IsName n.name :=
      fun n => LineKind.isName_of_ofLine
    have hone : (1 : Int) ≤ (line : Int) := by omega
    -- a declaration made on this line, with what follows it
    have hadd : ∀ (d : Declaration) (next : Option Nat), d.Placed done →
        OpenClass (done ++ [d]) next → ∀ before e after,
        d :: src.declarations (line + 1) (l :: above) next (done.length + 1) lines =
          before ++ e :: after → e.Placed (done ++ before) := by
      intro d next hd hnext
      refine placed_cons hd fun before e after h => ?_
      exact ih (line + 1) (l :: above) next (done ++ [d]) (by omega) hnext before e after
        (by simpa using h)
    unfold Source.declarations
    cases hk : LineKind.ofLine l with
    | classLine n =>
      have hn := hname n (by rw [hk]; rfl)
      exact hadd _ _ ⟨hn, hone, Or.inl ⟨rfl, rfl⟩, fun c hc => by simp [declaration] at hc⟩
        (openClass_new done rfl rfl)
    | functionLine n =>
      have hn := hname n (by rw [hk]; rfl)
      exact hadd _ _
        ⟨hn, hone, Or.inr (Or.inl ⟨rfl, rfl⟩), fun c hc => by simp [declaration] at hc⟩
        (hcur.append _)
    | methodLine n =>
      have hn := hname n (by rw [hk]; rfl)
      cases hcurrent : current with
      | none => exact ih (line + 1) _ none done (by omega) (hcurrent ▸ hcur)
      | some c =>
        refine hadd _ _ ⟨hn, hone, Or.inr (Or.inr ⟨rfl, rfl⟩), fun c' hc' => ?_⟩
          ((hcurrent ▸ hcur).append _)
        exact hcur c' (hcurrent.trans hc')
    | blankLine =>
      exact ih (line + 1) _ none done (by omega) fun c hc => by simp at hc
    | otherLine => exact ih (line + 1) _ current done (by omega) hcur

/-- **The declarations of a text are placed**, each after those before it. -/
theorem placed_of_mem (t : Text) {before after : List Declaration}
    (h : (ofText t).declarations = before ++ d :: after) : d.Placed before :=
  Source.placed_of_declarations (Source.ofText t) t.lines 1 [] none [] (Nat.le_refl 1)
    (fun c hc => by simp at hc) before d after h

end Outline
end SymbolAtlas
