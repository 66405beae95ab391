import Mathlib.Data.List.Induction
import SymbolAtlas.Debounce.Loop

/-!
# Calls of the event loop

A handle stands for one call for good: what is asked for later gets other handles, and marking one
call leaves the others alone (`Loop.getElem?_mark`).  The loop makes next the call that is due
first and, among those due at the same moment, was asked for first (`Loop.next?_spec`).
-/

namespace SymbolAtlas

/-- The order in which calls are made: by the moment they are due, then by their handles. -/
def Sooner (a b : Int × Nat) : Prop := a.1 < b.1 ∨ a.1 = b.1 ∧ a.2 < b.2

namespace Loop

variable {handle : Nat} {call : LaterCall} {l : Loop}

/-- A call that is still to be made. -/
def Waits (l : Loop) (handle : Nat) (call : LaterCall) : Prop :=
  l.calls[handle]? = some call ∧ call.state = .waiting

/-- Handles are given out in order. -/
theorem Waits.lt_nextHandle (h : l.Waits handle call) : handle < l.nextHandle :=
  (List.getElem?_eq_some_iff.mp h.1).1

/-- A handle stands for one call. -/
theorem Waits.unique {call' : LaterCall} (h : l.Waits handle call) (h' : l.Waits handle call') :
    call = call' :=
  Option.some.inj (h.1.symm.trans h'.1)

/-- One call is marked, and no other. -/
theorem getElem?_mark (l : Loop) (handle handle' : Nat) (state : CallState) :
    (l.mark handle state).calls[handle']? =
      if handle = handle' then l.calls[handle']?.map fun c => { c with state := state }
      else l.calls[handle']? := by
  rw [mark, List.getElem?_modify]
  split_ifs <;> simp

@[simp] theorem now_mark (l : Loop) (handle : Nat) (state : CallState) :
    (l.mark handle state).now = l.now := rfl

@[simp] theorem nextHandle_mark (l : Loop) (handle : Nat) (state : CallState) :
    (l.mark handle state).nextHandle = l.nextHandle := by
  simp [nextHandle, mark]

@[simp] theorem now_setClock (l : Loop) (now : Int) : (l.setClock now).now = now := rfl

@[simp] theorem nextHandle_setClock (l : Loop) (now : Int) :
    (l.setClock now).nextHandle = l.nextHandle := rfl

@[simp] theorem waits_setClock {now : Int} :
    (l.setClock now).Waits handle call ↔ l.Waits handle call := Iff.rfl

@[simp] theorem now_callLater (l : Loop) (delay : Int) (key : String) :
    (l.callLater delay key).now = l.now := rfl

@[simp] theorem nextHandle_callLater (l : Loop) (delay : Int) (key : String) :
    (l.callLater delay key).nextHandle = l.nextHandle + 1 := by
  simp [nextHandle, callLater]

/-- A call that is marked as settled does not wait; the others do as before. -/
theorem waits_mark {handle' : Nat} {state : CallState} (hstate : state ≠ .waiting) :
    (l.mark handle state).Waits handle' call ↔ handle ≠ handle' ∧ l.Waits handle' call := by
  unfold Waits
  rw [getElem?_mark]
  split_ifs with h
  · refine iff_of_false ?_ fun hne => hne.1 h
    rintro ⟨hcall, hwaiting⟩
    obtain ⟨c, -, rfl⟩ := Option.map_eq_some_iff.mp hcall
    exact hstate hwaiting
  · simp [h]

/-- The last call waits, or an earlier one. -/
theorem waits_concat {now : Int} {calls : List LaterCall} {last : LaterCall} :
    Waits ⟨now, calls ++ [last]⟩ handle call ↔
      handle = calls.length ∧ call = last ∧ last.state = .waiting ∨
        Waits ⟨now, calls⟩ handle call := by
  unfold Waits
  rcases Nat.lt_trichotomy handle calls.length with hlt | rfl | hgt
  · rw [List.getElem?_append_left hlt]
    simp [Nat.ne_of_lt hlt]
  · rw [List.getElem?_concat_length, List.getElem?_eq_none (Nat.le_refl _)]
    simp only [Option.some.injEq, true_and, reduceCtorEq, false_and, or_false]
    refine ⟨?_, ?_⟩ <;> rintro ⟨rfl, h⟩ <;> exact ⟨rfl, h⟩
  · rw [List.getElem?_eq_none (by simpa using Nat.succ_le_of_lt hgt),
      List.getElem?_eq_none (Nat.le_of_lt hgt)]
    simp [Nat.ne_of_gt hgt]

/-- A call that is asked for waits. -/
theorem waits_callLater {delay : Int} {key : String} :
    (l.callLater delay key).Waits handle call ↔
      handle = l.nextHandle ∧ call = ⟨key, l.now + delay, .waiting⟩ ∨ l.Waits handle call := by
  rw [callLater, waits_concat]
  simp [nextHandle]

/-! ### The next call -/

/-- The last call comes next only if it is due before all others. -/
theorem next?_concat (now limit : Int) (calls : List LaterCall) (last : LaterCall) :
    next? ⟨now, calls ++ [last]⟩ limit =
      if last.state = .waiting ∧ last.due ≤ limit ∧
          ∀ b, next? ⟨now, calls⟩ limit = some b → last.due < b.1.due then
        some (last, calls.length)
      else next? ⟨now, calls⟩ limit := by
  have hzip : (calls ++ [last]).zipIdx = calls.zipIdx ++ [(last, calls.length)] := by
    simp [List.zipIdx_append]
  simp only [next?, hzip, List.foldl_append, List.foldl_cons, List.foldl_nil]
  congr 1
  simp [and_assoc, Option.all_eq_true]

/-- **The loop makes next the call that is due first**, if there is one that is due by the limit. -/
theorem next?_spec (l : Loop) (limit : Int) :
    (∀ call handle, l.next? limit = some (call, handle) → l.Waits handle call ∧ call.due ≤ limit ∧
        ∀ handle' call', l.Waits handle' call' → handle' ≠ handle →
          Sooner (call.due, handle) (call'.due, handle')) ∧
      (l.next? limit = none → ∀ handle call, l.Waits handle call → limit < call.due) := by
  rcases l with ⟨now, calls⟩
  induction calls using List.reverseRecOn with
  | nil => simp [next?, Waits]
  | append_singleton calls last ih =>
    obtain ⟨hsome, hnone⟩ := ih
    rw [next?_concat]
    split_ifs with hlast
    · -- the last call is due before the best of the others
      obtain ⟨hwaiting, hdue, hbest⟩ := hlast
      refine ⟨fun call handle h => ?_, fun h => by simp at h⟩
      obtain ⟨rfl, rfl⟩ : last = call ∧ calls.length = handle := by simpa using h
      refine ⟨waits_concat.mpr (Or.inl ⟨rfl, rfl, hwaiting⟩), hdue, fun handle' call' hw hne => ?_⟩
      have hw := (waits_concat.mp hw).resolve_left fun h => hne h.1
      refine Or.inl ?_
      cases hb : next? ⟨now, calls⟩ limit with
      | none => exact Int.lt_of_le_of_lt hdue (hnone hb handle' call' hw)
      | some b =>
        obtain ⟨hbw, -, hbfirst⟩ := hsome b.1 b.2 hb
        have hlt := hbest b hb
        by_cases hsame : handle' = b.2
        · subst hsame
          rw [hw.unique hbw]
          exact hlt
        · have hsooner := hbfirst handle' call' hw hsame
          simp only [Sooner] at hsooner
          omega
    · have hlater : last.state = .waiting → last.due ≤ limit →
          ∃ b, next? ⟨now, calls⟩ limit = some b ∧ b.1.due ≤ last.due := fun hw hd => by
        by_contra hno
        exact hlast ⟨hw, hd, fun b hb => Int.not_le.mp fun hle => hno ⟨b, hb, hle⟩⟩
      refine ⟨fun call handle h => ?_, fun h handle call hw => ?_⟩
      · obtain ⟨hw, hdue, hfirst⟩ := hsome call handle h
        refine ⟨waits_concat.mpr (Or.inr hw), hdue, fun handle' call' hw' hne => ?_⟩
        rcases waits_concat.mp hw' with ⟨rfl, rfl, hwaiting⟩ | hw'
        · have hlt : handle < calls.length := hw.lt_nextHandle
          by_cases hlim : call'.due ≤ limit
          · obtain ⟨b, hb, hle⟩ := hlater hwaiting hlim
            obtain rfl : b = (call, handle) := Option.some.inj (hb.symm.trans h)
            simp only [Sooner] at hle ⊢
            omega
          · simp only [Sooner]
            omega
        · exact hfirst handle' call' hw' hne
      · rcases waits_concat.mp hw with ⟨-, rfl, hwaiting⟩ | hw
        · refine Int.not_le.mp fun hle => ?_
          obtain ⟨b, hb, -⟩ := hlater hwaiting hle
          simp [h] at hb
        · exact hnone h handle call hw

end Loop
end SymbolAtlas
