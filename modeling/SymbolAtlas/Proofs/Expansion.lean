import Mathlib.Data.List.GetD
import Mathlib.Data.List.TakeWhile
import SymbolAtlas.Proofs.Merging
import SymbolAtlas.Settings.Load

/-!
# Expanding references

A reference is a name between `${` and `}`.  Two references in a text do not overlap, because a name
has no dollar sign in it, and so a text is cut in one way only into references to variables that are
set and characters between them (`Cut.unique`).  Expanding the text puts in the values for the
references and leaves the characters (`exists_cut`).

Expanding a value keeps its shape (`Value.part?_expand`), and it does not matter whether two
mappings are merged before or after (`Value.expandFields_mergeFields`).
-/

namespace SymbolAtlas

variable {after name t : Text} {env : Variables}

/-! ### References in a text -/

/-- A reference to a variable as it is written. -/
def referenceText (name : Text) : Text := '$' :: '{' :: (name ++ ['}'])

/-- The names that can be referred to are words. -/
def IsVariable (name : Text) : Prop := name ≠ [] ∧ ∀ c ∈ name, isWord c = true

/-- A reference to a variable stands behind `before` in a text. -/
def RefersBehind (t before name : Text) : Prop :=
  IsVariable name ∧ ∃ after, t = before ++ (referenceText name ++ after)

theorem isWord_dollar : isWord '$' = false := by decide +kernel

theorem isWord_brace : isWord '}' = false := by decide +kernel

theorem referenceText_append (name after : Text) :
    referenceText name ++ after = '$' :: '{' :: (name ++ '}' :: after) := by
  simp [referenceText]

/-- A reference is found where one is written. -/
theorem reference?_eq_some_iff :
    reference? t = some (name, after) ↔ IsVariable name ∧ t = referenceText name ++ after := by
  constructor
  · intro h
    unfold reference? at h
    split at h
    · rename_i rest
      dsimp only at h
      split at h
      · rename_i after' hafter
        split_ifs at h with hname
        obtain ⟨rfl, rfl⟩ := Prod.mk.inj (Option.some.inj h)
        refine ⟨⟨hname, fun c hc => List.mem_takeWhile_imp hc⟩, ?_⟩
        rw [referenceText_append, ← hafter,
          List.prefix_iff_eq_append.mp (List.takeWhile_prefix isWord)]
      · cases h
    · cases h
  · rintro ⟨⟨hname, hword⟩, rfl⟩
    have htake : (name ++ '}' :: after).takeWhile isWord = name := by
      rw [List.takeWhile_append_of_pos hword, List.takeWhile_cons_of_neg (by simp [isWord_brace]),
        List.append_nil]
    rw [referenceText_append]
    simp only [reference?, htake, List.drop_left, if_neg hname]

/-- A reference behind the first character is one of the rest. -/
theorem RefersBehind.tail {before : Text} {c : Char}
    (h : RefersBehind (c :: t) (c :: before) name) : RefersBehind t before name := by
  obtain ⟨hname, after, ht⟩ := h
  exact ⟨hname, after, (List.cons.inj ht).2⟩

/-- At the start of a text one variable is referred to at most. -/
theorem RefersBehind.eq_of_start {name' : Text} (h : IsVariable name)
    (h' : RefersBehind (referenceText name ++ after) [] name') : name' = name := by
  obtain ⟨hname', after', ht⟩ := h'
  have hfirst : reference? (referenceText name ++ after) = some (name, after) :=
    reference?_eq_some_iff.mpr ⟨h, rfl⟩
  rw [reference?_eq_some_iff.mpr ⟨hname', ht⟩] at hfirst
  exact (Prod.mk.inj (Option.some.inj hfirst)).1

/-- Behind a dollar sign there is no other one in a reference. -/
theorem dollar_notMem_reference (h : IsVariable name) : '$' ∉ '{' :: (name ++ ['}']) := by
  have hname : '$' ∉ name := fun hin => by simpa [isWord_dollar] using h.2 '$' hin
  simp [hname]

/-- **References do not overlap**: what is referred to behind the start of a reference is referred
to behind its end. -/
theorem RefersBehind.behind {before name' : Text} (h : IsVariable name)
    (h' : RefersBehind (referenceText name ++ after) before name') (hbefore : before ≠ []) :
    ∃ between, before = referenceText name ++ between ∧ RefersBehind after between name' := by
  obtain ⟨hname', after', ht⟩ := h'
  rcases List.append_eq_append_iff.mp ht with ⟨between, rfl, hbetween⟩ | ⟨inner, hinner, hafter⟩
  · exact ⟨between, rfl, hname', after', hbetween⟩
  · obtain ⟨c, front, rfl⟩ := List.exists_cons_of_ne_nil hbefore
    cases inner with
    | nil =>
      rw [List.append_nil] at hinner
      exact ⟨[], by rw [List.append_nil, hinner], hname', after', hafter.symm⟩
    | cons x inner =>
      -- the second reference would start inside the first one, with a dollar sign
      rw [referenceText_append] at hafter
      obtain rfl : '$' = x := (List.cons.inj hafter).1
      have hrest : '{' :: (name ++ ['}']) = front ++ '$' :: inner := (List.cons.inj hinner).2
      exact absurd (hrest ▸ List.mem_append_right front (List.mem_cons_self ..))
        (dollar_notMem_reference h)

/-! ### Cutting a text -/

/-- A piece of a text: a character, or a reference to a variable. -/
inductive Piece where
  | char (c : Char)
  | reference (name : Text)
  deriving DecidableEq, Repr

namespace Piece

/-- A piece as it is written. -/
def source : Piece → Text
  | .char c => [c]
  | .reference name => referenceText name

/-- What is put in for a piece. -/
def value (env : Variables) : Piece → Text
  | .char c => [c]
  | .reference name => ((env.get? (String.ofList name)).map String.toList).getD (referenceText name)

theorem source_ne_nil (p : Piece) : p.source ≠ [] := by
  cases p <;> exact List.cons_ne_nil _ _

end Piece

/-- The text is cut into pieces: they make up the text, and the references among them are exactly
those in the text to variables that are set. -/
structure Cut (env : Variables) (t : Text) (pieces : List Piece) : Prop where
  source : pieces.flatMap Piece.source = t
  set : ∀ name, .reference name ∈ pieces →
    IsVariable name ∧ (env.get? (String.ofList name)).isSome = true
  all : ∀ before name, RefersBehind t before name →
    (env.get? (String.ofList name)).isSome = true →
      ∃ l r, pieces = l ++ .reference name :: r ∧ l.flatMap Piece.source = before

namespace Cut

variable {env : Variables} {t after name : Text} {pieces : List Piece}

theorem nil : Cut env [] [] := by
  refine ⟨rfl, by simp, ?_⟩
  rintro before name ⟨-, after, ht⟩
  simp [referenceText] at ht

/-- A reference to a variable that is set is a piece. -/
theorem reference (h : Cut env after pieces) (hname : IsVariable name)
    (hset : (env.get? (String.ofList name)).isSome = true) :
    Cut env (referenceText name ++ after) (.reference name :: pieces) := by
  refine ⟨by rw [List.flatMap_cons, h.source]; rfl, ?_, ?_⟩
  · intro name' hin
    rcases List.mem_cons.mp hin with heq | hin
    · cases heq
      exact ⟨hname, hset⟩
    · exact h.set name' hin
  · intro before name' hrefers hset'
    by_cases hbefore : before = []
    · subst hbefore
      exact ⟨[], pieces, by rw [hrefers.eq_of_start hname]; rfl, rfl⟩
    · obtain ⟨between, rfl, hbehind⟩ := hrefers.behind hname hbefore
      obtain ⟨l, r, rfl, hl⟩ := h.all between name' hbehind hset'
      exact ⟨.reference name :: l, r, rfl, by rw [List.flatMap_cons, hl]; rfl⟩

/-- A character at which no such reference starts is a piece. -/
theorem char (h : Cut env t pieces) {c : Char}
    (hnone : ∀ name, RefersBehind (c :: t) [] name →
      (env.get? (String.ofList name)).isSome = false) : Cut env (c :: t) (.char c :: pieces) := by
  refine ⟨by rw [List.flatMap_cons, h.source]; rfl, ?_, ?_⟩
  · intro name hin
    exact h.set name (by simpa using hin)
  · intro before name hrefers hset
    cases before with
    | nil => simp [hnone name hrefers] at hset
    | cons x before =>
      obtain rfl : c = x := (List.cons.inj hrefers.2.choose_spec).1
      obtain ⟨l, r, rfl, hl⟩ := h.all before name hrefers.tail hset
      exact ⟨.char c :: l, r, rfl, by rw [List.flatMap_cons, hl]; rfl⟩

/-- What is left of a cut text behind its first piece. -/
theorem tail {p : Piece} (h : Cut env t (p :: pieces)) :
    Cut env (pieces.flatMap Piece.source) pieces := by
  refine ⟨rfl, fun name hin => h.set name (List.mem_cons_of_mem _ hin), ?_⟩
  rintro before name ⟨hname, after, hrest⟩ hset
  have hwhole : RefersBehind t (p.source ++ before) name := by
    refine ⟨hname, after, ?_⟩
    rw [← h.source, List.flatMap_cons, hrest, List.append_assoc]
  obtain ⟨l, r, hl, hbefore⟩ := h.all _ name hwhole hset
  cases l with
  | nil => exact absurd (List.append_eq_nil_iff.mp hbefore.symm).1 p.source_ne_nil
  | cons p' l =>
    obtain ⟨rfl, rfl⟩ := List.cons.inj hl
    exact ⟨l, r, rfl, List.append_cancel_left hbefore⟩

/-- A reference that comes first in one way to cut a text comes first in every way. -/
theorem head_eq (h : Cut env t pieces) {rest : List Piece}
    (h' : Cut env t (.reference name :: rest)) : ∃ rest', pieces = .reference name :: rest' := by
  obtain ⟨hname, hset⟩ := h'.set name (List.mem_cons_self ..)
  have hfirst : RefersBehind t [] name := ⟨hname, rest.flatMap Piece.source, h'.source.symm⟩
  obtain ⟨l, r, rfl, hl⟩ := h.all [] name hfirst hset
  cases l with
  | nil => exact ⟨r, rfl⟩
  | cons p l => exact absurd (List.append_eq_nil_iff.mp hl).1 p.source_ne_nil

/-- **A text is cut in one way only.** -/
theorem unique {pieces' : List Piece} (h : Cut env t pieces) (h' : Cut env t pieces') :
    pieces = pieces' := by
  induction pieces generalizing t pieces' with
  | nil =>
    cases pieces' with
    | nil => rfl
    | cons p rest =>
      have hempty := h'.source.trans h.source.symm
      exact absurd (List.append_eq_nil_iff.mp hempty).1 p.source_ne_nil
  | cons p rest ih =>
    have hsame : pieces'.flatMap Piece.source = (p :: rest).flatMap Piece.source :=
      h'.source.trans h.source.symm
    cases p with
    | reference name =>
      obtain ⟨rest', rfl⟩ := h'.head_eq h
      rw [List.flatMap_cons, List.flatMap_cons] at hsame
      rw [ih h.tail (List.append_cancel_left hsame ▸ h'.tail)]
    | char c =>
      rcases pieces' with _ | ⟨c' | name, rest'⟩
      · cases hsame
      · rw [List.flatMap_cons, List.flatMap_cons] at hsame
        obtain ⟨rfl, hrest⟩ : c' = c ∧ rest'.flatMap Piece.source = rest.flatMap Piece.source :=
          List.cons.inj hsame
        rw [ih h.tail (hrest ▸ h'.tail)]
      · obtain ⟨rest'', heq⟩ := h.head_eq h'
        cases heq

end Cut

/-! ### Expanding a text -/

/-- Skipped characters are dropped. -/
theorem expandFrom_skip (env : Variables) (n : Nat) (t : Text) :
    expandFrom env n t = expandFrom env 0 (t.drop n) := by
  induction t generalizing n with
  | nil => simp [expandFrom]
  | cons c t ih =>
    cases n with
    | zero => rfl
    | succ n => rw [expandFrom, ih, List.drop_succ_cons]

/-- A reference to a variable that is set is replaced as a whole. -/
theorem expandFrom_reference {value : String} (hname : IsVariable name)
    (hset : env.get? (String.ofList name) = some value) (after : Text) :
    expandFrom env 0 (referenceText name ++ after) = value.toList ++ expandFrom env 0 after := by
  have href : reference? (referenceText name ++ after) = some (name, after) :=
    reference?_eq_some_iff.mpr ⟨hname, rfl⟩
  have hdrop : ('{' :: (name ++ '}' :: after)).drop (name.length + 2) = after := by
    rw [List.drop_succ_cons, List.drop_append, List.drop_eq_nil_of_le (by omega)]
    simp
  rw [referenceText_append, expandFrom]
  simp only [← referenceText_append, href, hset]
  rw [expandFrom_skip, hdrop]

/-- A character stays where no reference to a variable that is set starts. -/
theorem expandFrom_char {c : Char}
    (hnone : ∀ name, RefersBehind (c :: t) [] name → env.get? (String.ofList name) = none) :
    expandFrom env 0 (c :: t) = c :: expandFrom env 0 t := by
  rw [expandFrom]
  cases href : reference? (c :: t) with
  | none => rfl
  | some found =>
    obtain ⟨hname, ht⟩ := reference?_eq_some_iff.mp href
    simp only [hnone found.1 ⟨hname, found.2, ht⟩]

/-- **Expanding a text** puts in the values for the references among its pieces. -/
theorem exists_cut (env : Variables) (t : Text) :
    ∃ pieces, Cut env t pieces ∧ expandFrom env 0 t = pieces.flatMap (Piece.value env) := by
  induction hn : t.length using Nat.strong_induction_on generalizing t with
  | _ n ih =>
    cases t with
    | nil => exact ⟨[], .nil, rfl⟩
    | cons c t =>
      by_cases hset : ∃ name value,
          RefersBehind (c :: t) [] name ∧ env.get? (String.ofList name) = some value
      · obtain ⟨name, value, ⟨hname, after, ht⟩, hvalue⟩ := hset
        have hshort : after.length < n := by
          rw [← hn, ht]
          simp [referenceText]
          omega
        obtain ⟨pieces, hcut, hexpand⟩ := ih after.length hshort after rfl
        refine ⟨.reference name :: pieces, ?_, ?_⟩
        · rw [ht]
          exact hcut.reference hname (by simp [hvalue])
        · rw [ht, List.nil_append, expandFrom_reference hname hvalue, hexpand, List.flatMap_cons]
          simp [Piece.value, hvalue]
      · have hnone : ∀ name, RefersBehind (c :: t) [] name →
            env.get? (String.ofList name) = none := fun name hrefers =>
          Option.eq_none_iff_forall_ne_some.mpr fun value hvalue =>
            hset ⟨name, value, hrefers, hvalue⟩
        obtain ⟨pieces, hcut, hexpand⟩ := ih t.length (by simp [← hn]) t rfl
        refine ⟨.char c :: pieces, hcut.char fun name hrefers => by simp [hnone name hrefers], ?_⟩
        rw [expandFrom_char hnone, hexpand]
        rfl

/-- A reference inside of another one is none, and a reference that is put in stays as it is. -/
example : expandText ⟨[("A", "$\x7bB\x7d"), ("B", "b")]⟩ "$\x7bA\x7d $\x7bA$\x7bB\x7d $\x7bC\x7d" =
    "$\x7bB\x7d $\x7bAb $\x7bC\x7d" := by decide +kernel

/-- A text that refers to no variable that is set stays as it is. -/
theorem expandText_of_unset {s : String} (h : ∀ before name, RefersBehind s.toList before name →
      env.get? (String.ofList name) = none) : expandText env s = s := by
  obtain ⟨pieces, hcut, hexpand⟩ := exists_cut env s.toList
  have hvalues : ∀ p ∈ pieces, p.value env = p.source := by
    rintro (c | name) hp
    · rfl
    · obtain ⟨hname, hset⟩ := hcut.set name hp
      obtain ⟨l, r, rfl⟩ := List.append_of_mem hp
      have hrefers : RefersBehind s.toList (l.flatMap Piece.source) name := by
        refine ⟨hname, r.flatMap Piece.source, ?_⟩
        rw [← hcut.source, List.flatMap_append, List.flatMap_cons]
        rfl
      simp [h _ name hrefers] at hset
  have hsame : expandFrom env 0 s.toList = s.toList := by
    rw [hexpand, ← hcut.source, List.flatMap_congr hvalues]
  rw [expandText, hsame, String.ofList_toList]

namespace Value

variable {fields : Fields} {v : Value}

/-! ### Expanding a value -/

variable (env : Variables)

/-- Items are expanded one by one. -/
theorem expandItems_eq (items : List Value) : expandItems env items = items.map (expand env) := by
  induction items with
  | nil => rfl
  | cons v rest ih => rw [expandItems, ih, List.map_cons]

/-- So are fields. -/
theorem expandFields_eq (fields : Fields) :
    expandFields env fields = fields.map fun f => (f.1, expand env f.2) := by
  induction fields with
  | nil => rfl
  | cons f rest ih => rw [expandFields, ih, List.map_cons]

/-- A field is expanded where it is. -/
theorem field?_expandFields (k : Scalar) (fields : Fields) :
    field? k (expandFields env fields) = (field? k fields).map (expand env) := by
  induction fields with
  | nil => rfl
  | cons f rest ih =>
    rw [expandFields, field?, field?, ih]
    split_ifs <;> rfl

/-- It can be put in before or after. -/
theorem expandFields_putField (k : Scalar) (v : Value) (fields : Fields) :
    expandFields env (putField k v fields) =
      putField k (expand env v) (expandFields env fields) := by
  induction fields with
  | nil => rfl
  | cons f rest ih =>
    rw [expandFields, putField, putField]
    split_ifs
    · rfl
    · rw [expandFields, ih]

/-- Mappings are expanded before or after merging if that holds of the values merged in. -/
theorem expandFields_mergeInto_of {around : List Fields}
    (h : ∀ f ∈ fields, ∀ before, expand env (mergeValue around before f.2) =
      mergeValue (around.map (expandFields env)) (before.map (expand env)) (expand env f.2))
    (base : Fields) :
    expandFields env (mergeInto around base fields) =
      mergeInto (around.map (expandFields env)) (expandFields env base)
        (expandFields env fields) := by
  induction fields generalizing base with
  | nil => rfl
  | cons f rest ih =>
    obtain ⟨hf, hrest⟩ := List.forall_mem_cons.mp h
    rw [mergeInto, ih hrest, expandFields_putField, hf, ← field?_expandFields, expandFields,
      mergeInto]

/-- **Values can be merged before or after they are expanded.** -/
theorem expand_mergeValue (around : List Fields) (before : Option Value) (v : Value) :
    expand env (mergeValue around before v) =
      mergeValue (around.map (expandFields env)) (before.map (expand env)) (expand env v) := by
  induction v using parts_induction generalizing around before with
  | map fields ih =>
    have hinto : ∀ around base, expandFields env (mergeInto around base fields) =
        mergeInto (around.map (expandFields env)) (expandFields env base)
          (expandFields env fields) := fun around base =>
      expandFields_mergeInto_of env (fun f hf before => ih f hf around before) base
    rcases before with _ | ((_ | _ | _ | _ | _ | _ | _) | _ | base | _ | _ | between)
    case some.map => exact congrArg Value.map (hinto (base :: around) base)
    case some.cycle =>
      have hbase := List.getD_map around [] (n := between) (expandFields env)
      refine congrArg Value.map ((hinto (around.drop between) _).trans ?_)
      rw [List.map_drop, ← hbase]
      rfl
    all_goals rfl
  | scalar s => cases s <;> rfl
  | list items | set keys | pairs entries | cycle between => rfl

/-- **Expansion commutes with merging.** -/
theorem expandFields_mergeFields (base fields : Fields) :
    expandFields env (mergeFields base fields) =
      mergeFields (expandFields env base) (expandFields env fields) :=
  expandFields_mergeInto_of env (fun f _ before => expand_mergeValue env [base] before f.2) base

/-! ### The parts of a value -/

/-- The part with a number of a list or of a mapping. -/
def nth? (i : Nat) : Value → Option Value
  | .list items => items[i]?
  | .map fields => fields[i]?.map Prod.snd
  | _ => none

/-- The part of a value at a place, given by numbers from the outside in. -/
def part? : Value → List Nat → Option Value
  | v, [] => some v
  | v, i :: place => (v.nth? i).bind fun w => w.part? place

/-- Whether nothing is expanded in a value: it is neither a text nor a list nor a mapping. -/
def isFixed : Value → Bool
  | .scalar (.text _) | .list _ | .map _ => false
  | _ => true

/-- What is at a place before and after expansion: a text and its expansion, two lists of one
length, two mappings with the same keys in the same order, or the same value. -/
inductive Matches : Value → Value → Prop
  | text (s : String) : Matches (.scalar (.text s)) (.scalar (.text (expandText env s)))
  | list {items items' : List Value} (h : items.length = items'.length) :
      Matches (.list items) (.list items')
  | map {fields fields' : Fields} (h : fields.map Prod.fst = fields'.map Prod.fst) :
      Matches (.map fields) (.map fields')
  | fixed {v : Value} (h : v.isFixed = true) : Matches v v

/-- An expanded value matches. -/
theorem matches_expand (v : Value) : Matches env v (expand env v) := by
  cases v with
  | scalar s =>
    cases s with
    | text s => exact .text s
    | null | bool b | int n | binary b | moment m | bytes b => exact .fixed rfl
  | list items =>
    rw [expand, expandItems_eq]
    exact .list (List.length_map _).symm
  | map fields =>
    rw [expand, expandFields_eq]
    refine .map ?_
    rw [List.map_map]
    rfl
  | set keys | pairs entries | cycle between => exact .fixed rfl

theorem nth?_expand (i : Nat) (v : Value) :
    (expand env v).nth? i = (v.nth? i).map (expand env) := by
  cases v with
  | scalar s => cases s <;> rfl
  | list items => rw [expand, expandItems_eq, nth?, nth?, List.getElem?_map]
  | map fields =>
    rw [expand, expandFields_eq, nth?, nth?, List.getElem?_map, Option.map_map, Option.map_map]
    rfl
  | set keys | pairs entries | cycle between => rfl

/-- Each part is expanded where it is. -/
theorem part?_expand (v : Value) (place : List Nat) :
    (expand env v).part? place = (v.part? place).map (expand env) := by
  induction place generalizing v with
  | nil => rfl
  | cons i place ih =>
    rw [part?, part?, nth?_expand]
    cases v.nth? i with
    | none => rfl
    | some w => exact ih w

/-- **Expansion keeps the shape of a value.** -/
theorem rel_part?_expand (v : Value) (place : List Nat) :
    Option.Rel (Matches env) (v.part? place) ((expand env v).part? place) := by
  rw [part?_expand]
  cases v.part? place with
  | none => exact .none
  | some w => exact .some (matches_expand env w)

/-- A text in the value refers to the variable. -/
def RefersTo (v : Value) (name : Text) : Prop :=
  ∃ place s before, v.part? place = some (.scalar (.text s)) ∧ RefersBehind s.toList before name

/-- A value refers to what its parts refer to. -/
theorem RefersTo.of_nth? {w : Value} {i : Nat} {name : Text} (hw : v.nth? i = some w)
    (h : w.RefersTo name) : v.RefersTo name := by
  obtain ⟨place, s, before, hs, hrefers⟩ := h
  refine ⟨i :: place, s, before, ?_, hrefers⟩
  rw [part?, hw]
  exact hs

/-- A value that refers to no variable that is set stays as it is. -/
theorem expand_of_unset (h : ∀ name, v.RefersTo name → env.get? (String.ofList name) = none) :
    expand env v = v := by
  induction v using parts_induction with
  | scalar s =>
    cases s with
    | text s =>
      have hsame : expandText env s = s := expandText_of_unset fun before name hrefers =>
        h name ⟨[], s, before, rfl, hrefers⟩
      rw [expand, hsame]
    | null | bool b | int n | binary b | moment m | bytes b => rfl
  | list items ih =>
    rw [expand, expandItems_eq]
    have hsame : ∀ w ∈ items, expand env w = w := fun w hw => ih w hw fun name hrefers => by
      obtain ⟨i, hi⟩ := List.mem_iff_getElem?.mp hw
      exact h name (hrefers.of_nth? (v := .list items) hi)
    rw [List.map_congr_left hsame, List.map_id']
  | map fields ih =>
    rw [expand, expandFields_eq]
    have hsame : ∀ f ∈ fields, (f.1, expand env f.2) = f := by
      intro f hf
      obtain ⟨i, hi⟩ := List.mem_iff_getElem?.mp hf
      have hi' : (Value.map fields).nth? i = some f.2 := by rw [nth?, hi, Option.map_some]
      rw [ih f hf fun name hrefers => h name (hrefers.of_nth? hi')]
    rw [List.map_congr_left hsame, List.map_id']
  | set keys | pairs entries | cycle between => rfl

/-! ### Values without cycles -/

theorem fieldsCyclic_eq_false_iff :
    fieldsCyclic fields = false ↔ ∀ f ∈ fields, f.2.isCyclic = false := by
  induction fields with
  | nil => simp [fieldsCyclic]
  | cons f rest ih => simp [fieldsCyclic, ih]

theorem isCyclic_of_field? {k : Scalar} (h : fieldsCyclic fields = false)
    (hv : field? k fields = some v) : v.isCyclic = false := by
  rw [fieldsCyclic_eq_false_iff] at h
  induction fields with
  | nil => cases hv
  | cons f rest ih =>
    obtain ⟨hf, hrest⟩ := List.forall_mem_cons.mp h
    rw [field?] at hv
    split_ifs at hv
    · exact Option.some.inj hv ▸ hf
    · exact ih hrest hv

/-- Putting in a finite value closes no cycle. -/
theorem fieldsCyclic_putField (h : fieldsCyclic fields = false) (hv : v.isCyclic = false)
    (k : Scalar) : fieldsCyclic (putField k v fields) = false := by
  rw [fieldsCyclic_eq_false_iff] at h ⊢
  induction fields with
  | nil => simpa [putField] using hv
  | cons f rest ih =>
    obtain ⟨hf, hrest⟩ := List.forall_mem_cons.mp h
    rw [putField]
    split_ifs
    · exact List.forall_mem_cons.mpr ⟨hv, hrest⟩
    · exact List.forall_mem_cons.mpr ⟨hf, ih hrest⟩

theorem fieldsCyclic_mergeInto_of {around : List Fields}
    (h : ∀ f ∈ fields, ∀ before : Option Value, (∀ u ∈ before, u.isCyclic = false) →
      (mergeValue around before f.2).isCyclic = false) {base : Fields}
    (hbase : fieldsCyclic base = false) : fieldsCyclic (mergeInto around base fields) = false := by
  induction fields generalizing base with
  | nil => exact hbase
  | cons f rest ih =>
    obtain ⟨hf, hrest⟩ := List.forall_mem_cons.mp h
    rw [mergeInto]
    refine ih hrest (fieldsCyclic_putField hbase (hf _ fun u hu => ?_) f.1)
    exact isCyclic_of_field? hbase hu

/-- Finite values merge to a finite one. -/
theorem isCyclic_mergeValue (around : List Fields) {before : Option Value}
    (hbefore : ∀ u ∈ before, u.isCyclic = false) (hv : v.isCyclic = false) :
    (mergeValue around before v).isCyclic = false := by
  induction v using parts_induction generalizing around before with
  | map fields ih =>
    have hfields := fieldsCyclic_eq_false_iff.mp hv
    rcases before with _ | (_ | _ | base | _ | _ | between)
    case some.map =>
      refine fieldsCyclic_mergeInto_of (fun f hf before hu => ?_) (hbefore _ rfl)
      exact ih f hf _ hu (hfields f hf)
    case some.cycle => cases hbefore (.cycle between) rfl
    all_goals exact hv
  | scalar s | list items | set keys | pairs entries | cycle between => exact hv

/-- What is merged of mappings without cycles has none. -/
theorem fieldsCyclic_mergeFields {base : Fields} (hbase : fieldsCyclic base = false)
    (hfields : fieldsCyclic fields = false) : fieldsCyclic (mergeFields base fields) = false :=
  fieldsCyclic_mergeInto_of (fun f hf _ hu =>
    isCyclic_mergeValue _ hu (fieldsCyclic_eq_false_iff.mp hfields f hf)) hbase

end Value

/-- Layers of settings that are not cyclic can be expanded one by one and then merged. -/
theorem SettingSources.fields_of_layers {s : SettingSources} {user project : Fields}
    (huser : fileFields s.user = .ok user) (hproject : fileFields s.project = .ok project)
    (huser' : Value.fieldsCyclic user = false) (hproject' : Value.fieldsCyclic project = false) :
    s.fields = .ok
      (([user, project].map (Value.expandFields s.environment)).foldl Value.mergeFields []) := by
  have hcyclic :
      Value.fieldsCyclic (Value.mergeFields (Value.mergeFields [] user) project) = false :=
    Value.fieldsCyclic_mergeFields (Value.fieldsCyclic_mergeFields rfl huser') hproject'
  simp only [fields, huser, hproject, hcyclic, List.map_cons, List.map_nil, List.foldl_cons,
    List.foldl_nil, Value.expandFields_mergeFields]
  rfl

/-- **Expansion commutes with merging**, so that layers of settings can be expanded before or after
they are merged.  It keeps the shape of a value.  In each text it replaces exactly the references to
variables that are set, by their values as they stand, and it leaves a value as it is that refers to
no variable that is set. -/
theorem expansion_commutes_with_merging (env : Variables) :
    (∀ a b : Fields, Value.expandFields env (Value.mergeFields a b) =
        Value.mergeFields (Value.expandFields env a) (Value.expandFields env b)) ∧
      (∀ (s : SettingSources) (user project : Fields), s.environment = env →
        fileFields s.user = .ok user → fileFields s.project = .ok project →
        Value.fieldsCyclic user = false → Value.fieldsCyclic project = false →
          s.fields = .ok
            (([user, project].map (Value.expandFields env)).foldl Value.mergeFields [])) ∧
      (∀ (v : Value) (place : List Nat),
        Option.Rel (Value.Matches env) (v.part? place) ((v.expand env).part? place)) ∧
      (∀ s : String, ∃! pieces, Cut env s.toList pieces ∧
        expandText env s = String.ofList (pieces.flatMap (Piece.value env))) ∧
      ∀ v : Value, (∀ name, v.RefersTo name → env.get? (String.ofList name) = none) →
        v.expand env = v := by
  refine ⟨Value.expandFields_mergeFields env, ?_, Value.rel_part?_expand env, fun s => ?_,
    fun v => Value.expand_of_unset env⟩
  · rintro s user project rfl huser hproject huser' hproject'
    exact SettingSources.fields_of_layers huser hproject huser' hproject'
  · obtain ⟨pieces, hcut, hexpand⟩ := exists_cut env s.toList
    refine ⟨pieces, ⟨hcut, congrArg String.ofList hexpand⟩, fun pieces' h => h.1.unique hcut⟩

end SymbolAtlas
