import SymbolAtlas.Proofs.Entries
import SymbolAtlas.Proofs.Lineage

/-!
# The suffixes of one natural id

A declaration that carries no id over asks for its natural id and is given a variant of it.  A log
of what was asked for and what was given (`Lineage.Ledger`) is in order if for each natural id its
variants were given one after the other, the id itself first, and if the suffix counters stand where
this leaves them.

One more id keeps the ledger (`Lineage.Ledger.handOut`), provided that exactly the ids that were
given are in use and that the counter can be noted.  It is never necessary to search for a free
variant: the ids that were given for other natural ids are not in the way, because the text of an
id tells the line, the suffix and the natural id (`OnLine.variant_unique`).
-/

namespace SymbolAtlas

/-! ### Ids and their lines -/

/-- The id ends in the number of a line, as natural ids do. -/
def OnLine (line : Int) (id : String) : Prop :=
  0 ≤ line ∧ ∃ u : Text, id.toList = u ++ '@' :: (toString line).toList

/-- An id tells the line of its declaration. -/
theorem onLine_naturalId (f name : String) {line : Int} (h : 0 ≤ line)
    (container : Option String) : OnLine line (naturalId f name line container) := by
  cases container with
  | none => exact ⟨h, _, toList_naturalId_none f name line⟩
  | some k => exact ⟨h, _, toList_naturalId_some f name k line⟩

theorem toList_withSuffix (id : String) (n : Nat) :
    (withSuffix id n).toList = id.toList ++ '#' :: (toString n).toList := by
  simp [withSuffix]

namespace OnLine

variable {line line' : Int} {id id' : String}

/-- It tells one line only. -/
theorem line_unique (h : OnLine line id) (h' : OnLine line' id) : line = line' := by
  obtain ⟨hpos, u, hu⟩ := h
  obtain ⟨hpos', u', hu'⟩ := h'
  have hdigits := (append_cons_inj (by decide) (by decide) (isRun_line hpos) (isRun_line hpos')
    (hu.symm.trans hu')).2.2
  obtain ⟨m, rfl⟩ := Int.eq_ofNat_of_zero_le hpos
  obtain ⟨n, rfl⟩ := Int.eq_ofNat_of_zero_le hpos'
  rw [digits_inj hdigits]

/-- A natural id has no suffix. -/
theorem ne_withSuffix (h : OnLine line id) (id' : String) (n : Nat) : id ≠ withSuffix id' n := by
  rintro rfl
  obtain ⟨hpos, u, hu⟩ := h
  rw [toList_withSuffix] at hu
  exact absurd (append_cons_inj (by decide) (by decide) (isRun_digits n) (isRun_line hpos) hu).2.1
    (by decide)

/-- **An id is a variant of one natural id only.** -/
theorem variant_unique {x : String} (h : OnLine line id) (h' : OnLine line' id')
    (hx : IsVariant id x) (hx' : IsVariant id' x) : id = id' := by
  rcases hx with rfl | ⟨n, rfl⟩ <;> rcases hx' with heq | ⟨m, heq⟩
  · exact heq
  · exact absurd heq (h.ne_withSuffix id' m)
  · exact absurd heq.symm (h'.ne_withSuffix id n)
  · have hlist := congrArg String.toList heq
    rw [toList_withSuffix, toList_withSuffix] at hlist
    exact String.toList_inj.mp
      (append_cons_inj (by decide) (by decide) (isRun_digits n) (isRun_digits m) hlist).1

end OnLine

/-! ### Ledgers -/

/-- The variants of an id in the order in which they are given: the id, then from 2 on those with a
suffix. -/
def nthVariant (id : String) : Nat → String
  | 0 => id
  | n + 1 => withSuffix id (n + 2)

theorem isVariant_nthVariant (id : String) (n : Nat) : IsVariant id (nthVariant id n) := by
  cases n with
  | zero => exact Or.inl rfl
  | succ n => exact Or.inr ⟨n + 2, rfl⟩

/-- Variants with different numbers differ. -/
theorem nthVariant_inj {line : Int} {id : String} (h : OnLine line id) {m n : Nat}
    (heq : nthVariant id m = nthVariant id n) : m = n := by
  cases m with
  | zero =>
    cases n with
    | zero => rfl
    | succ n => exact absurd heq (h.ne_withSuffix id (n + 2))
  | succ m =>
    cases n with
    | zero => exact absurd heq.symm (h.ne_withSuffix id (m + 2))
    | succ n =>
      have := withSuffix_inj heq
      omega

namespace Lineage

/-- The ids that were given for the natural id `id`, by a log of natural ids and given ones. -/
def given (log : List (String × String)) (id : String) : List String :=
  (log.filter (·.1 = id)).map Prod.snd

theorem given_append (log log' : List (String × String)) (id : String) :
    given (log ++ log') id = given log id ++ given log' id := by
  rw [given, List.filter_append, List.map_append]
  rfl

theorem given_concat_self (log : List (String × String)) (id x : String) :
    given (log ++ [(id, x)]) id = given log id ++ [x] := by
  rw [given_append]
  simp [given]

theorem given_concat_of_ne (log : List (String × String)) {id id' : String} (h : id' ≠ id)
    (x : String) : given (log ++ [(id', x)]) id = given log id := by
  rw [given_append]
  simp [given, h]

/-- What was given out for an id is in the log. -/
theorem mem_given {log : List (String × String)} {id x : String} :
    x ∈ given log id ↔ (id, x) ∈ log := by
  rw [given, List.mem_map]
  constructor
  · rintro ⟨⟨id', x'⟩, he, rfl⟩
    obtain ⟨hmem, hid⟩ := List.mem_filter.mp he
    obtain rfl := of_decide_eq_true hid
    exact hmem
  · exact fun h => ⟨(id, x), List.mem_filter.mpr ⟨h, decide_eq_true rfl⟩, rfl⟩

/-- **A log in order**, and the suffix counters that it leaves. -/
structure Ledger (log : List (String × String)) (suffixes : Entries String Nat) : Prop where
  natural : ∀ e ∈ log, ∃ line, OnLine line e.1
  consecutive : ∀ id, given log id = (List.range (given log id).length).map (nthVariant id)
  /-- An id has a counter once a variant with a suffix was given. -/
  counters : ∀ id, suffixes.get? id =
    if 2 ≤ (given log id).length then some ((given log id).length + 1) else none
  nodup : suffixes.keys.Nodup

/-- Where nothing was given out nothing is counted. -/
theorem ledger_nil : Ledger [] {} :=
  ⟨by simp, fun id => by simp [given], fun id => by simp [given], List.nodup_nil⟩

namespace Ledger

variable {log : List (String × String)} {suffixes : Entries String Nat} {id x : String}
  {line : Int}

/-- Counted are the ids given out more than once. -/
theorem mem_keys_iff (h : Ledger log suffixes) :
    id ∈ suffixes.keys ↔ 2 ≤ (given log id).length := by
  have hcounter := h.counters id
  rw [← not_iff_not, ← Entries.get?_eq_none_iff, hcounter]
  split_ifs with hn <;> simp [hn]

/-- All that is given out for an id are its variants. -/
theorem isVariant (h : Ledger log suffixes) (hx : (id, x) ∈ log) : IsVariant id x := by
  have hgiven := mem_given.mpr hx
  rw [h.consecutive id] at hgiven
  obtain ⟨n, -, rfl⟩ := List.mem_map.mp hgiven
  exact isVariant_nthVariant id n

/-- A variant that was given was given for its natural id, in its turn. -/
theorem lt_of_mem (h : Ledger log suffixes) (hid : OnLine line id) {n : Nat}
    (hn : nthVariant id n ∈ log.map Prod.snd) : n < (given log id).length := by
  obtain ⟨⟨id', x⟩, he, rfl⟩ := List.mem_map.mp hn
  obtain ⟨line', hline'⟩ := h.natural _ he
  obtain rfl : id' = id := hline'.variant_unique hid (h.isVariant he) (isVariant_nthVariant id n)
  have hgiven := mem_given.mpr he
  rw [h.consecutive id'] at hgiven
  obtain ⟨m, hm, heq⟩ := List.mem_map.mp hgiven
  rw [← nthVariant_inj hid heq]
  exact List.mem_range.mp hm

/-- And none of them is left out. -/
theorem mem_of_lt (h : Ledger log suffixes) {n : Nat} (hn : n < (given log id).length) :
    nthVariant id n ∈ log.map Prod.snd := by
  have hmem : nthVariant id n ∈ given log id := by
    rw [h.consecutive id]
    exact List.mem_map_of_mem (List.mem_range.mpr hn)
  exact List.mem_map_of_mem (mem_given.mp hmem)

/-- An id that was given with a suffix has a counter. -/
theorem mem_keys_of_withSuffix (h : Ledger log suffixes) {n : Nat}
    (hn : (id, withSuffix id n) ∈ log) : id ∈ suffixes.keys := by
  obtain ⟨line, hid⟩ := h.natural _ hn
  have hgiven := mem_given.mpr hn
  rw [h.consecutive id] at hgiven
  obtain ⟨m, hm, heq⟩ := List.mem_map.mp hgiven
  have hlt := List.mem_range.mp hm
  rw [h.mem_keys_iff]
  cases m with
  | zero => exact absurd heq (hid.ne_withSuffix id n)
  | succ m => omega

/-- One more variant in its turn leaves the log in order. -/
theorem concat_consecutive (h : Ledger log suffixes) (id id' : String) :
    given (log ++ [(id, nthVariant id (given log id).length)]) id' =
      (List.range (given (log ++ [(id, nthVariant id (given log id).length)]) id').length).map
        (nthVariant id') := by
  by_cases hid : id = id'
  · subst hid
    rw [given_concat_self, List.length_append, List.length_singleton, List.range_succ,
      List.map_append, ← h.consecutive id]
    rfl
  · rw [given_concat_of_ne log hid]
    exact h.consecutive id'

end Ledger

/-! ### One more id -/

/-- A number that is free is taken. -/
theorem freeSuffix_of_free {inUse : String → Bool} {id : String} {n : Nat}
    (h : inUse (withSuffix id n) = false) (fuel : Nat) : freeSuffix inUse id fuel n = n := by
  cases fuel with
  | zero => rfl
  | succ fuel => rw [freeSuffix, h, if_neg Bool.false_ne_true]

theorem noteSuffix_of_room {l : Lineage} {id : String} {n : Nat}
    (h : ((l.suffixes.putLast id n).size : Int) ≤ l.capacity) :
    (l.noteSuffix id n).suffixes = l.suffixes.putLast id n := by
  rw [noteSuffix]
  exact if_neg (Int.not_lt.mpr h)

/-- **A declaration is given the next variant of its natural id**, if exactly the ids that were
given are in use, and if there is room for a counter in case that the id was given before. -/
theorem Ledger.handOut {log : List (String × String)} {l : Lineage} {taken : List String}
    {id : String} {line : Int} (h : Ledger log l.suffixes) (hid : OnLine line id)
    (hused : ∀ x, x ∈ log.map Prod.snd ↔ x ∈ taken ∨ x ∈ l.retired)
    (hroom : given log id ≠ [] → ∀ n, ((l.suffixes.putLast id n).size : Int) ≤ l.capacity) :
    (l.unused taken id).1 = nthVariant id (given log id).length ∧
      Ledger (log ++ [(id, (l.unused taken id).1)]) (l.unused taken id).2.suffixes := by
  have hinUse : ∀ x, (taken.contains x || l.retired.contains x) = true ↔ x ∈ log.map Prod.snd :=
    fun x => by rw [hused x]; simp
  have hnatural : ∀ x, ∀ e ∈ log ++ [(id, x)], ∃ line, OnLine line e.1 := fun x =>
    List.forall_mem_append.mpr ⟨h.natural, List.forall_mem_singleton.mpr ⟨line, hid⟩⟩
  by_cases hnone : given log id = []
  · -- the id itself is free
    have hfree : (taken.contains id || l.retired.contains id) = false := by
      rw [Bool.eq_false_iff, ne_eq, hinUse]
      intro hin
      have := h.lt_of_mem hid (n := 0) hin
      rw [hnone] at this
      exact Nat.not_lt_zero 0 this
    have hunused : l.unused taken id = (id, l) := by
      simp only [unused, hfree, Bool.false_eq_true, if_false]
    have hfirst : id = nthVariant id (given log id).length := by rw [hnone]; rfl
    rw [hunused]
    refine ⟨hfirst, hnatural id, ?_, fun id' => ?_, h.nodup⟩
    · have := h.concat_consecutive id
      rwa [← hfirst] at this
    · rw [h.counters id']
      by_cases hid' : id = id'
      · subst hid'
        simp [given_concat_self, hnone]
      · rw [given_concat_of_ne log hid']
  · -- the id is in use, and the counter points at the next variant
    obtain ⟨m, hm⟩ : ∃ m, (given log id).length = m + 1 :=
      Nat.exists_eq_succ_of_ne_zero fun hzero => hnone (List.length_eq_zero_iff.mp hzero)
    have hself : (taken.contains id || l.retired.contains id) = true :=
      (hinUse id).mpr (h.mem_of_lt (n := 0) (by omega))
    have hcounter : (l.suffixes.get? id).getD 2 = m + 2 := by
      rw [h.counters id, hm]
      split_ifs with hmany
      · rfl
      · rw [Option.getD_none]
        omega
    have hfree : (taken.contains (withSuffix id (m + 2)) ||
        l.retired.contains (withSuffix id (m + 2))) = false := by
      rw [Bool.eq_false_iff, ne_eq, hinUse]
      intro hin
      have := h.lt_of_mem hid (n := m + 1) hin
      omega
    have hunused : l.unused taken id = (withSuffix id (m + 2), l.noteSuffix id (m + 3)) := by
      simp only [unused, hself, if_true, hcounter]
      rw [freeSuffix_of_free hfree]
    have hnext : withSuffix id (m + 2) = nthVariant id (given log id).length := by rw [hm]; rfl
    rw [hunused]
    refine ⟨hnext, hnatural _, ?_, fun id' => ?_, ?_⟩
    · have := h.concat_consecutive id
      rwa [← hnext] at this
    · rw [noteSuffix_of_room (hroom hnone _), Entries.get?_putLast]
      by_cases hid' : id = id'
      · subst hid'
        simp [given_concat_self, hm]
      · rw [if_neg (Ne.symm hid'), given_concat_of_ne log hid', h.counters id']
    · rw [noteSuffix_of_room (hroom hnone _)]
      exact Entries.nodup_keys_putLast h.nodup id _

end Lineage
end SymbolAtlas
