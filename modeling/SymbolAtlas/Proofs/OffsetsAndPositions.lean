import Mathlib.Order.Interval.Set.Monotone
import Mathlib.Data.Int.ConditionallyCompleteOrder
import SymbolAtlas.Proofs.Lines

/-!
# Offsets and positions

An offset up to the end of a text lies on one line, and its position says on which one and how far
from its start.  The positions that are reached are those inside the text: on one of its lines, and
before the start of the next one or, on the last line, no further than the end
(`LineIndex.Inside`).  Between these and the offsets the two directions of the index are inverse to
each other, and they keep the order.  Beyond the text both directions stay at its ends.
-/

namespace SymbolAtlas

/-- Positions are ordered by line, then by column. -/
instance : LinearOrder Position where
  le p q := p.le q = true
  le_refl := Position.le_refl
  le_trans _ _ _ := Position.le_trans
  le_antisymm := by
    rintro ⟨line, column⟩ ⟨line', column'⟩ h h'
    simp only [Position.le_iff] at h h'
    rw [Position.mk.injEq]
    omega
  le_total := Position.le_total
  toDecidableLE := fun p q => inferInstanceAs (Decidable (p.le q = true))

namespace LineIndex

/-- The offset at which a line starts. -/
def startOf (ix : LineIndex) (line : Int) : Int := ix.starts.getD (line - 1).toNat 0

/-- The position is inside the text. -/
structure Inside (ix : LineIndex) (p : Position) : Prop where
  first : 1 ≤ p.line
  last : p.line ≤ ix.lineCount
  column : 1 ≤ p.column
  before_next : p.line < ix.lineCount →
    ix.startOf p.line + (p.column - 1) < ix.startOf (p.line + 1)
  before_end : p.line = ix.lineCount → ix.startOf p.line + (p.column - 1) ≤ ix.length

variable {t : Text} {o k a : Nat} {p : Position}

/-! ### Lines inside the text -/

/-- No line starts past the end of the text. -/
theorem start_le_length (h : (ofText t).starts[k]? = some a) : a ≤ t.length := by
  obtain ⟨rows, hrows, hstarts, -⟩ := t.exists_rows
  rw [← hstarts, List.getElem?_map] at h
  obtain ⟨⟨a, l⟩, hrow, rfl⟩ := Option.map_eq_some_iff.mp h
  obtain ⟨pre, post, rfl, ha, -⟩ := hrows.at_row hrow
  simp only [List.length_append]
  omega

theorem startOf_succ {ix : LineIndex} (h : ix.starts[k]? = some a) :
    ix.startOf ((k : Int) + 1) = a := by
  have hindex : ((k : Int) + 1 - 1).toNat = k := by omega
  rw [startOf, hindex, List.getD_eq_getElem?_getD, h, Option.getD_some]

theorem startOf_next {ix : LineIndex} (h : ix.starts[k + 1]? = some a) :
    ix.startOf ((k : Int) + 1 + 1) = a := by
  rw [← startOf_succ h, Int.natCast_add, Int.natCast_one]

/-- An offset on a line is found from its position. -/
theorem OnLine.offsetAt_eq {ix : LineIndex} (h : ix.OnLine o k a) (ho : o ≤ ix.length) :
    ix.offsetAt ⟨(k : Int) + 1, ((o - a : Nat) : Int) + 1⟩ = o := by
  have hlen : k < ix.lineCount := (List.getElem?_eq_some_iff.mp h.start).1
  have hline : min ((k : Int) + 1 - 1).toNat (ix.lineCount - 1) = k := by omega
  have hstart : ix.starts.getD k 0 = a := by
    rw [List.getD_eq_getElem?_getD, h.start, Option.getD_some]
  have hle := h.le
  rw [offsetAt]
  dsimp only
  rw [hline, hstart]
  omega

/-- **The positions inside the text** are those of the offsets on its lines. -/
theorem inside_iff :
    (ofText t).Inside p ↔ ∃ o k a, (ofText t).OnLine o k a ∧ o ≤ t.length ∧
      p = ⟨(k : Int) + 1, ((o - a : Nat) : Int) + 1⟩ := by
  have hlength : (ofText t).length = t.length := rfl
  constructor
  · rintro ⟨hfirst, hlast, hcolumn, hnext, hend⟩
    obtain ⟨k, hk⟩ : ∃ k : Nat, p.line = k + 1 := ⟨(p.line - 1).toNat, by omega⟩
    obtain ⟨c, hc⟩ : ∃ c : Nat, p.column = c + 1 := ⟨(p.column - 1).toNat, by omega⟩
    have hlen : k < (ofText t).lineCount := by omega
    have hstart := List.getElem?_eq_getElem hlen
    generalize (ofText t).starts[k] = a at hstart
    rw [hk, hc, startOf_succ hstart] at hnext hend
    refine ⟨a + c, k, a, ⟨hstart, Nat.le_add_right a c, fun b hb => ?_⟩, ?_, ?_⟩
    · have hmore : k + 1 < (ofText t).lineCount := (List.getElem?_eq_some_iff.mp hb).1
      have hlt := hnext (by omega)
      rw [startOf_next hb] at hlt
      omega
    · by_cases hmore : k + 1 < (ofText t).lineCount
      · have hb := List.getElem?_eq_getElem hmore
        have hlt := hnext (by omega)
        have hle := start_le_length hb
        rw [startOf_next hb] at hlt
        omega
      · have hle := hend (by omega)
        omega
    · rw [Nat.add_sub_cancel_left, ← hk, ← hc]
  · rintro ⟨o, k, a, honLine, ho, rfl⟩
    have hlen : k < (ofText t).lineCount := (List.getElem?_eq_some_iff.mp honLine.start).1
    have hle := honLine.le
    refine ⟨by dsimp only; omega, by dsimp only; omega, by dsimp only; omega, ?_, ?_⟩
    · intro hmore
      dsimp only at hmore ⊢
      have hb : k + 1 < (ofText t).lineCount := by omega
      have hlt := honLine.lt _ (List.getElem?_eq_getElem hb)
      rw [startOf_succ honLine.start, startOf_next (List.getElem?_eq_getElem hb)]
      omega
    · intro _
      dsimp only
      rw [startOf_succ honLine.start]
      omega

/-! ### There and back -/

theorem positionAt_natCast (ho : o ≤ t.length) :
    (ofText t).positionAt o = (ofText t).positionOf o := by
  rw [positionAt, Int.toNat_natCast, show (ofText t).length = t.length from rfl,
    Nat.min_eq_left ho]

theorem exists_nat_of_mem_Icc {o : Int} {n : Nat} (h : o ∈ Set.Icc 0 (n : Int)) :
    ∃ m : Nat, o = m ∧ m ≤ n := ⟨o.toNat, by have := h.1; omega, by have := h.2; omega⟩

/-- Every offset has a position inside the text. -/
theorem inside_positionAt (t : Text) (o : Int) : (ofText t).Inside ((ofText t).positionAt o) := by
  have hlength : min o.toNat (ofText t).length ≤ t.length := Nat.min_le_right _ _
  obtain ⟨k, a, honLine⟩ := exists_onLine (ascending_ofText t) (min o.toNat (ofText t).length)
  exact inside_iff.mpr ⟨_, k, a, honLine, hlength, positionOf_eq (ascending_ofText t) honLine⟩

/-- Offsets come back from their positions. -/
theorem offsetAt_positionAt {o : Int} (h : o ∈ Set.Icc 0 (t.length : Int)) :
    ((ofText t).offsetAt ((ofText t).positionAt o) : Int) = o := by
  obtain ⟨m, rfl, hm⟩ := exists_nat_of_mem_Icc h
  obtain ⟨k, a, honLine⟩ := exists_onLine (ascending_ofText t) m
  rw [positionAt_natCast hm, positionOf_eq (ascending_ofText t) honLine, honLine.offsetAt_eq hm]

/-- And positions from their offsets. -/
theorem Inside.positionAt_offsetAt (h : (ofText t).Inside p) :
    (ofText t).positionAt ((ofText t).offsetAt p) = p := by
  obtain ⟨o, k, a, honLine, ho, rfl⟩ := inside_iff.mp h
  rw [honLine.offsetAt_eq ho, positionAt_natCast ho, positionOf_eq (ascending_ofText t) honLine]

theorem offsetAt_le (t : Text) (p : Position) : (ofText t).offsetAt p ≤ t.length :=
  Nat.min_le_right _ _

/-! ### Order -/

theorem positionAt_le_positionAt {o o' : Int} (h : o ∈ Set.Icc 0 (t.length : Int))
    (h' : o' ∈ Set.Icc 0 (t.length : Int)) :
    (ofText t).positionAt o ≤ (ofText t).positionAt o' ↔ o ≤ o' := by
  obtain ⟨m, rfl, hm⟩ := exists_nat_of_mem_Icc h
  obtain ⟨m', rfl, hm'⟩ := exists_nat_of_mem_Icc h'
  rw [positionAt_natCast hm, positionAt_natCast hm', Int.ofNat_le]
  exact positionOf_le_iff (ascending_ofText t)

/-- Positions keep the order of offsets. -/
theorem strictMonoOn_positionAt (t : Text) :
    StrictMonoOn (ofText t).positionAt (Set.Icc 0 (t.length : Int)) := by
  intro o ho o' ho' hlt
  rw [← not_le, positionAt_le_positionAt ho' ho]
  exact not_le.mpr hlt

/-- Before the text every offset counts as its beginning. -/
theorem positionAt_of_nonpos {o : Int} (h : o ≤ 0) :
    (ofText t).positionAt o = (ofText t).positionAt 0 := by
  have hzero : o.toNat = (0 : Int).toNat := by omega
  rw [positionAt, positionAt, hzero]

/-- Past the text every offset counts as its end. -/
theorem positionAt_of_length_le {o : Int} (h : (t.length : Int) ≤ o) :
    (ofText t).positionAt o = (ofText t).positionAt t.length := by
  have hlength : (ofText t).length = t.length := rfl
  have hend : min o.toNat (ofText t).length = min (t.length : Int).toNat (ofText t).length := by
    omega
  rw [positionAt, positionAt, hend]

theorem monotone_offsetAt (ix : LineIndex) (line : Int) :
    Monotone fun column => ix.offsetAt ⟨line, column⟩ := by
  intro column column' hle
  simp only [offsetAt]
  omega

/-- The positions inside the text are those from its beginning to its end. -/
theorem positionAt_le_of_inside (h : (ofText t).Inside p) :
    (ofText t).positionAt 0 ≤ p ∧ p ≤ (ofText t).positionAt t.length := by
  have hle := offsetAt_le t p
  have hmem : ((ofText t).offsetAt p : Int) ∈ Set.Icc 0 (t.length : Int) :=
    ⟨Int.natCast_nonneg _, Int.ofNat_le.mpr hle⟩
  have hzero : (0 : Int) ∈ Set.Icc 0 (t.length : Int) := ⟨le_refl _, Int.natCast_nonneg _⟩
  have hend : (t.length : Int) ∈ Set.Icc 0 (t.length : Int) := ⟨Int.natCast_nonneg _, le_refl _⟩
  rw [← h.positionAt_offsetAt, positionAt_le_positionAt hzero hmem,
    positionAt_le_positionAt hmem hend]
  exact ⟨hmem.1, hmem.2⟩

/-- **A line index is an order isomorphism** between the offsets of a text and the positions inside
it.  Offsets outside are taken to the first and to the last of these positions, and every position,
wherever it is, to an offset of the text that does not fall as the column grows. -/
theorem offsets_order_isomorphic (t : Text) :
    (∀ o ∈ Set.Icc 0 (t.length : Int), ((ofText t).offsetAt ((ofText t).positionAt o) : Int) = o) ∧
      StrictMonoOn (ofText t).positionAt (Set.Icc 0 (t.length : Int)) ∧
      (∀ o ≤ 0, (ofText t).positionAt o = (ofText t).positionAt 0) ∧
      (∀ o ≥ (t.length : Int), (ofText t).positionAt o = (ofText t).positionAt t.length) ∧
      IsLeast {p | (ofText t).Inside p} ((ofText t).positionAt 0) ∧
      IsGreatest {p | (ofText t).Inside p} ((ofText t).positionAt t.length) ∧
      (∀ p, (ofText t).Inside p → (ofText t).positionAt ((ofText t).offsetAt p) = p) ∧
      (∀ p, (ofText t).offsetAt p ≤ t.length) ∧
      ∀ line, Monotone fun column => (ofText t).offsetAt ⟨line, column⟩ :=
  ⟨fun _ => offsetAt_positionAt, strictMonoOn_positionAt t, fun _ => positionAt_of_nonpos,
    fun _ => positionAt_of_length_le,
    ⟨inside_positionAt t 0, fun _ h => (positionAt_le_of_inside h).1⟩,
    ⟨inside_positionAt t t.length, fun _ h => (positionAt_le_of_inside h).2⟩,
    fun _ h => h.positionAt_offsetAt, offsetAt_le t, monotone_offsetAt (ofText t)⟩

end LineIndex
end SymbolAtlas
