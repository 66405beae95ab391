import Mathlib.Data.List.Infix
import SymbolAtlas.Settings.Value

/-!
# What merging leaves where

A mapping is read along a path of keys (`Value.at?`).  What a key has after merging depends on what
the key has in the two mappings (`Value.field?_mergeInto`), and on nothing else unless one of them
contains itself.  By induction on
the path, a value that is no mapping stands at a path of the merged mapping exactly if it stands
there in the later one, or if it stands there in the earlier one and the later one neither has
anything there nor cuts the path off (`Value.at?_mergeValue`).

Merging in what has been merged in already changes nothing, since every key has what it would get
(`Value.mergeInto_of_settled`).
-/

namespace SymbolAtlas

/-! ### Keys -/

theorem sameKey_iff {a b : Scalar} : sameKey a b = true ↔ a.form = b.form := by
  simp [sameKey]

theorem sameKey_refl (k : Scalar) : sameKey k k = true := sameKey_iff.mpr rfl

section

variable {k : Scalar}

variable {α : Type}

/-- The same key has the same value. -/
theorem field?_congr {k' : Scalar} (h : sameKey k k' = true) (fields : List (Scalar × α)) :
    field? k fields = field? k' fields := by
  have hsame : ∀ x : Scalar, sameKey x k = sameKey x k' := by
    intro x
    rw [Bool.eq_iff_iff, sameKey_iff, sameKey_iff, sameKey_iff.mp h]
  induction fields with
  | nil => rfl
  | cons f rest ih => rw [field?, field?, hsame, ih]

/-- What is put in is read back at its key and nowhere else. -/
theorem field?_putField (k k' : Scalar) (v : α) (fields : List (Scalar × α)) :
    field? k' (putField k v fields) = if sameKey k k' then some v else field? k' fields := by
  induction fields with
  | nil => rfl
  | cons f rest ih =>
    by_cases hf : sameKey f.1 k = true
    · have hk' : sameKey f.1 k' = sameKey k k' := by
        rw [Bool.eq_iff_iff, sameKey_iff, sameKey_iff, sameKey_iff.mp hf]
      rw [putField, if_pos hf, field?, field?, hk']
      split_ifs <;> rfl
    · rw [putField, if_neg hf, field?, field?, ih]
      split_ifs with hfk hkk
      · exact absurd (sameKey_iff.mpr ((sameKey_iff.mp hfk).trans (sameKey_iff.mp hkk).symm)) hf
      · rfl
      · rfl
      · rfl

/-- Putting in what is there changes nothing. -/
theorem putField_of_field? {v : α} {fields : List (Scalar × α)} (h : field? k fields = some v) :
    putField k v fields = fields := by
  induction fields with
  | nil => cases h
  | cons f rest ih =>
    rw [field?] at h
    split_ifs at h with hf
    · rw [putField, if_pos hf, ← Option.some.inj h]
    · rw [putField, if_neg hf, ih h]

/-- A key that is not there comes last. -/
theorem putField_of_none {fields : List (Scalar × α)} (h : field? k fields = none) (v : α) :
    putField k v fields = fields ++ [(k, v)] := by
  induction fields with
  | nil => rfl
  | cons f rest ih =>
    rw [field?] at h
    split_ifs at h with hf
    rw [putField, if_neg hf, ih h, List.cons_append]

end

namespace Value

variable {v : Value} {fields : Fields} {k : Scalar}

/-! ### Trees of mappings -/

/-- Whether a value is a mapping. -/
def isMap : Value → Bool
  | .map _ => true
  | _ => false

mutual

/-- Whether the mappings in a value are a tree: none has a key twice, and none contains itself. -/
def isNested : Value → Bool
  | .map fields => nestedFields fields
  | .cycle _ => false
  | _ => true
termination_by structural v => v

/-- Whether no key is there twice and the mappings among the values are trees. -/
def nestedFields : Fields → Bool
  | [] => true
  | (k, v) :: rest => (field? k rest).isNone && isNested v && nestedFields rest
termination_by structural fields => fields

end

/-- What holds of a value if it holds of the parts of its lists and mappings holds of all values. -/
theorem parts_induction {motive : Value → Prop} (scalar : ∀ s, motive (.scalar s))
    (list : ∀ items, (∀ v ∈ items, motive v) → motive (.list items))
    (map : ∀ fields : Fields, (∀ f ∈ fields, motive f.2) → motive (.map fields))
    (set : ∀ keys, motive (.set keys)) (pairs : ∀ entries, motive (.pairs entries))
    (cycle : ∀ between, motive (.cycle between)) (v : Value) : motive v :=
  @Value.rec motive (fun items => ∀ v ∈ items, motive v) (fun fields => ∀ f ∈ fields, motive f.2)
    (fun _ => True) (fun f => motive f.2) (fun _ => True)
    scalar list map set (fun entries _ => pairs entries) cycle
    (by simp) (fun v rest hv hrest => List.forall_mem_cons.mpr ⟨hv, hrest⟩)
    (by simp) (fun f rest hf hrest => List.forall_mem_cons.mpr ⟨hf, hrest⟩)
    trivial (fun _ _ _ _ => trivial) (fun _ _ hv => hv) (fun _ _ _ _ => trivial) v

theorem nestedFields_cons {rest : Fields} :
    nestedFields ((k, v) :: rest) = true ↔
      field? k rest = none ∧ v.isNested = true ∧ nestedFields rest = true := by
  simp [nestedFields, and_assoc]

/-- Of a mapping that is a tree every value is one. -/
theorem isNested_of_field? (h : nestedFields fields = true) (hv : field? k fields = some v) :
    v.isNested = true := by
  induction fields with
  | nil => cases hv
  | cons f rest ih =>
    obtain ⟨-, hf, hrest⟩ := nestedFields_cons.mp h
    rw [field?] at hv
    split_ifs at hv
    · exact Option.some.inj hv ▸ hf
    · exact ih hrest hv

/-- A field is what its key has. -/
theorem field?_of_mem {f : Scalar × Value} (h : nestedFields fields = true) (hf : f ∈ fields) :
    field? f.1 fields = some f.2 := by
  induction fields with
  | nil => cases hf
  | cons f₀ rest ih =>
    obtain ⟨hnew, -, hrest⟩ := nestedFields_cons.mp h
    rcases List.mem_cons.mp hf with rfl | hf
    · rw [field?, if_pos (sameKey_refl f.1)]
    · have hother : sameKey f₀.1 f.1 ≠ true := fun hsame => by
        rw [field?_congr hsame, ih hrest hf] at hnew
        cases hnew
      rw [field?, if_neg hother, ih hrest hf]

/-! ### Merging key by key -/

/-- **What a key has after merging** comes of what it has in the two mappings. -/
theorem field?_mergeInto (h : nestedFields fields = true) (around : List Fields) (base : Fields)
    (k : Scalar) :
    field? k (mergeInto around base fields) =
      ((field? k fields).map (mergeValue around (field? k base))).or (field? k base) := by
  induction fields generalizing base with
  | nil => rfl
  | cons f rest ih =>
    obtain ⟨hnew, -, hrest⟩ := nestedFields_cons.mp h
    rw [mergeInto, ih hrest, field?_putField, field?]
    split_ifs with hk
    · rw [← field?_congr hk, ← field?_congr hk, hnew]
      rfl
    · rfl

/-- Merging changes nothing if every key has what it would get. -/
theorem mergeInto_of_settled {around : List Fields} {base : Fields}
    (h : ∀ f ∈ fields, field? f.1 base = some (mergeValue around (field? f.1 base) f.2)) :
    mergeInto around base fields = base := by
  induction fields with
  | nil => rfl
  | cons f rest ih =>
    obtain ⟨hf, hrest⟩ := List.forall_mem_cons.mp h
    rw [mergeInto, putField_of_field? hf, ih hrest]

/-! ### Laws -/

/-- Merging a mapping into nothing gives that mapping. -/
theorem mergeFields_nil (h : nestedFields fields = true) : mergeFields [] fields = fields := by
  have happend : ∀ rest base : Fields, nestedFields rest = true →
      (∀ f ∈ rest, field? f.1 base = none) → mergeInto [[]] base rest = base ++ rest := by
    intro rest
    induction rest with
    | nil => simp [mergeInto]
    | cons f rest ih =>
      intro base hnested hbase
      obtain ⟨hf, hrest⟩ := List.forall_mem_cons.mp hbase
      obtain ⟨hnew, -, hnested⟩ := nestedFields_cons.mp hnested
      have hlone : mergeValue [[]] none f.2 = f.2 := by cases f.2 <;> rfl
      rw [mergeInto, hf, hlone, putField_of_none hf, ih _ hnested, List.append_assoc,
        List.singleton_append]
      intro g hg
      have hother : ¬ sameKey f.1 g.1 = true := fun hsame => by
        rw [field?_congr hsame, field?_of_mem hnested hg] at hnew
        cases hnew
      rw [← putField_of_none hf f.2, field?_putField, if_neg hother, hrest g hg]
  exact happend fields [] h (fun f _ => rfl)

/-- Merging a value into itself leaves it as it is. -/
theorem mergeValue_self (around : List Fields) (h : v.isNested = true) :
    mergeValue around (some v) v = v := by
  induction v using parts_induction generalizing around with
  | map fields ih =>
    refine congrArg Value.map (mergeInto_of_settled fun f hf => ?_)
    have hvalue := field?_of_mem h hf
    rw [hvalue, ih f hf _ (isNested_of_field? h hvalue)]
  | scalar s | list items | set keys | pairs entries | cycle between => rfl

/-- A value that has been merged in is absorbed when it is merged in again. -/
theorem mergeValue_absorb (around around' : List Fields) (before : Option Value)
    (h : v.isNested = true) :
    mergeValue around' (some (mergeValue around before v)) v = mergeValue around before v := by
  induction v using parts_induction generalizing around around' before with
  | map fields ih =>
    have hagain : ∀ around around' base,
        mergeInto around' (mergeInto around base fields) fields = mergeInto around base fields := by
      refine fun around around' base => mergeInto_of_settled fun f hf => ?_
      have hvalue := field?_of_mem h hf
      have hmerged : field? f.1 (mergeInto around base fields) =
          some (mergeValue around (field? f.1 base) f.2) := by
        rw [field?_mergeInto h, hvalue]
        rfl
      rw [hmerged, ih f hf _ _ _ (isNested_of_field? h hvalue)]
    -- only two mappings are merged; otherwise the later one stays
    rcases before with _ | (_ | _ | base | _ | _ | between)
    case some.map => exact congrArg Value.map (hagain _ _ base)
    case some.cycle => exact congrArg Value.map (hagain _ _ _)
    all_goals exact mergeValue_self around' h
  | scalar s | list items | set keys | pairs entries | cycle between => rfl

/-! ### Paths -/

/-- What a value has at a key. -/
def child? (k : Scalar) : Value → Option Value
  | .map fields => field? k fields
  | _ => none

/-- What a value has at a path of keys. -/
def at? : Value → List Scalar → Option Value
  | v, [] => some v
  | v, k :: path => (v.child? k).bind fun w => w.at? path

/-- At no proper prefix of a path does the value have anything but mappings. -/
def OpenTo (v : Value) (path : List Scalar) : Prop :=
  ∀ front w, front <+: path → front ≠ path → v.at? front = some w → w.isMap = true

theorem child?_eq_none (h : v.isMap = false) (k : Scalar) : v.child? k = none := by
  cases v with
  | map fields => cases h
  | scalar s | list items | set keys | pairs entries | cycle between => rfl

theorem openTo_nil (v : Value) : v.OpenTo [] := fun _ _ hfront hne _ =>
  absurd (List.prefix_nil.mp hfront) hne

/-- A path goes on from what its first key has. -/
theorem openTo_cons_iff {path : List Scalar} :
    v.OpenTo (k :: path) ↔ v.isMap = true ∧ ∀ w, v.child? k = some w → w.OpenTo path := by
  constructor
  · intro h
    refine ⟨h [] v (List.nil_prefix) (List.cons_ne_nil _ _).symm rfl, ?_⟩
    intro w hw front u hfront hne hu
    refine h (k :: front) u (List.prefix_cons_inj k |>.mpr hfront) (by simpa using hne) ?_
    rw [at?, hw]
    exact hu
  · rintro ⟨hmap, hrest⟩ front u hfront hne hu
    cases front with
    | nil => exact Option.some.inj hu ▸ hmap
    | cons k' front =>
      obtain ⟨rfl, hshort⟩ := List.cons_prefix_cons.mp hfront
      obtain ⟨w, hw, hu⟩ := Option.bind_eq_some_iff.mp hu
      exact hrest w hw front u hshort (fun heq => hne (heq ▸ rfl)) hu

/-- Two values are merged into one only if both are mappings; otherwise the later one stays. -/
theorem mergeValue_cases (around : List Fields) {before : Option Value}
    (h : ∀ u ∈ before, u.isNested = true) (v : Value) :
    (∃ base fields, before = some (.map base) ∧ v = .map fields) ∨
      mergeValue around before v = v ∧ (v.isMap = true → ∀ u ∈ before, u.isMap = false) := by
  cases v with
  | map fields =>
    rcases before with _ | (_ | _ | base | _ | _ | between)
    case some.map => exact Or.inl ⟨base, fields, rfl, rfl⟩
    case some.cycle => cases h (.cycle between) rfl
    all_goals exact Or.inr ⟨rfl, fun _ u hu => by cases hu; try rfl⟩
  | scalar s | list items | set keys | pairs entries | cycle between =>
    exact Or.inr ⟨rfl, fun hmap => by cases hmap⟩

/-- **What is no mapping and stands at a path after merging** stands there in the later value, or
it stands there in the earlier one, and the later one has nothing there and leaves the path open. -/
theorem at?_mergeValue (around : List Fields) {before : Option Value}
    (hbefore : ∀ u ∈ before, u.isNested = true) (hv : v.isNested = true) (path : List Scalar)
    {leaf : Value} (hleaf : leaf.isMap = false) :
    (mergeValue around before v).at? path = some leaf ↔
      v.at? path = some leaf ∨
        (before.bind fun u => u.at? path) = some leaf ∧ v.at? path = none ∧ v.OpenTo path := by
  induction path generalizing around before v with
  | nil =>
    have hnot : v.at? [] ≠ none := by simp [at?]
    rw [or_iff_left fun h => hnot h.2.1]
    rcases mergeValue_cases around hbefore v with ⟨base, fields, rfl, rfl⟩ | ⟨hstays, -⟩
    · constructor
      · intro h
        cases h
        cases hleaf
      · intro h
        cases h
        cases hleaf
    · rw [hstays]
  | cons k path ih =>
    rcases mergeValue_cases around hbefore v with ⟨base, fields, rfl, rfl⟩ | ⟨hstays, hapart⟩
    · have hmerged : (mergeValue around (some (.map base)) (.map fields)).child? k =
          ((field? k fields).map (mergeValue (base :: around) (field? k base))).or
            (field? k base) := field?_mergeInto hv _ base k
      have hbase : ∀ u ∈ field? k base, u.isNested = true := fun u hu =>
        isNested_of_field? (hbefore (.map base) rfl) hu
      have hlater : (Value.map fields).child? k = field? k fields := rfl
      rw [openTo_cons_iff, at?, at?, hmerged, hlater]
      cases hk : field? k fields with
      | none => simp [at?, child?, isMap]
      | some u =>
        have hih := ih (base :: around) hbase (isNested_of_field? hv hk)
        simpa [at?, child?, isMap] using hih
    · rw [hstays, or_iff_left]
      rintro ⟨hfirst, -, hopen⟩
      obtain ⟨u, hu, hat⟩ := Option.bind_eq_some_iff.mp hfirst
      rw [at?, child?_eq_none (hapart (openTo_cons_iff.mp hopen).1 u hu) k] at hat
      cases hat

/-- **Merging keeps exactly the right leaves.**  A value that is no mapping stands at a path of the
merged mapping exactly if the later mapping has it there, or the earlier one has it there while the
later one has nothing there and nothing but mappings on the way.  What has been merged in is
absorbed when it is merged in again, merging a mapping into itself changes nothing, and nothing is
changed by merging with the empty mapping on either side. -/
theorem leaves_mergeFields {a b : Fields} (ha : nestedFields a = true)
    (hb : nestedFields b = true) :
    (∀ path leaf, leaf.isMap = false →
      ((Value.map (mergeFields a b)).at? path = some leaf ↔
        (Value.map b).at? path = some leaf ∨
          (Value.map a).at? path = some leaf ∧ (Value.map b).at? path = none ∧
            (Value.map b).OpenTo path)) ∧
      mergeFields (mergeFields a b) b = mergeFields a b ∧
      mergeFields a a = a ∧ mergeFields [] a = a ∧ mergeFields a [] = a := by
  refine ⟨fun path leaf hleaf => ?_, ?_, ?_, mergeFields_nil ha, rfl⟩
  · have hnested : ∀ u ∈ some (Value.map a), u.isNested = true := by
      rintro u hu
      exact Option.some.inj hu ▸ ha
    exact at?_mergeValue [] (v := .map b) hnested hb path hleaf
  · exact Value.map.inj (mergeValue_absorb [] [] (some (.map a)) (v := .map b) hb)
  · exact Value.map.inj (mergeValue_self [] (v := .map a) ha)

/-- Settings with a mapping inside a mapping, and with a number for a key. -/
def userLayer : Fields :=
  [(.text "indexer", .map [(.text "debounce_ms", .scalar (.int 5)),
      (.text "extra", .map [(.text "depth", .scalar (.int 3))])]),
    (.int 1, .scalar .null)]

/-- Settings that put a number in place of a mapping and a mapping in place of nothing. -/
def projectLayer : Fields :=
  [(.text "indexer", .map [(.text "extra", .scalar (.int 2)), (.text "max_retired_ids", .list [])]),
    (.bool true, .map [(.text "name", .scalar (.text "one"))])]

/-- One leaf of the earlier mapping stays and another is cut off; the number and the truth value are
one key. -/
theorem leaves_of_layers :
    nestedFields userLayer = true ∧ nestedFields projectLayer = true ∧
      (Value.map (mergeFields userLayer projectLayer)).at?
        [.text "indexer", .text "debounce_ms"] = some (.scalar (.int 5)) ∧
      (Value.map (mergeFields userLayer projectLayer)).at?
        [.text "indexer", .text "extra", .text "depth"] ≠ some (.scalar (.int 3)) ∧
      (Value.map (mergeFields userLayer projectLayer)).at?
        [.int 1, .text "name"] = some (.scalar (.text "one")) := by
  have ha : nestedFields userLayer = true := by decide +kernel
  have hb : nestedFields projectLayer = true := by decide +kernel
  obtain ⟨hleaves, -⟩ := leaves_mergeFields ha hb
  refine ⟨ha, hb, (hleaves _ _ rfl).mpr (Or.inr ⟨by rfl, by rfl, ?_⟩), fun h => ?_,
    (hleaves _ _ rfl).mpr (Or.inl (by rfl))⟩
  · refine openTo_cons_iff.mpr ⟨rfl, fun w hw => openTo_cons_iff.mpr ⟨?_, fun u hu => openTo_nil u⟩⟩
    exact Option.some.inj hw ▸ rfl
  · rcases (hleaves _ _ rfl).mp h with h | ⟨-, -, hopen⟩
    · cases h
    · have hextra := hopen [.text "indexer", .text "extra"] (.scalar (.int 2))
        ⟨[.text "depth"], rfl⟩ (by decide) rfl
      cases hextra

end Value
end SymbolAtlas
