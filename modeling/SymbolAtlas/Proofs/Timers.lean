import Mathlib.Data.List.Nodup
import SymbolAtlas.Debounce.Timers

/-!
# When a key is due

`Timers.due?` gives the moment at which the wait of a key is over.  Cancelling and scheduling
change it for their key alone, and `next?` finds a timer that is due as long as there is one.
-/

namespace SymbolAtlas
namespace Timers

variable {t : Timers} {key : String} {timer : Timer}

/-- The moment at which the wait of a key is over, if it is waiting. -/
def due? (t : Timers) (key : String) : Option Int :=
  (t.waiting.find? (·.key = key)).map Timer.due

/-- A key is pending as long as it is due at some time. -/
theorem isPending_eq (t : Timers) (key : String) : t.isPending key = (t.due? key).isSome := by
  rw [isPending, due?, Option.isSome_map, Bool.eq_iff_iff, List.find?_isSome, List.any_eq_true]

theorem mem_keys_iff : key ∈ t.keys ↔ (t.due? key).isSome = true := by
  rw [← isPending_eq, isPending, List.any_eq_true, keys, List.mem_map]
  simp only [decide_eq_true_eq]

/-- Cancelling a key leaves the other ones waiting. -/
theorem due?_cancel (t : Timers) (key key' : String) :
    (t.cancel key).due? key' = if key' = key then none else t.due? key' := by
  simp only [due?, cancel, List.find?_filter]
  split_ifs with h
  · subst h
    rw [Option.map_eq_none_iff, List.find?_eq_none]
    simp
  · have hsame : (fun x : Timer => decide (decide (x.key ≠ key) = true ∧
        decide (x.key = key') = true)) = fun x => decide (x.key = key') := by
      funext x
      by_cases hx : x.key = key' <;> simp [hx, h]
    rw [hsame]

/-- There are fewer timers without that of a key that waits. -/
theorem waiting_cancel_lt (h : timer ∈ t.waiting) :
    (t.cancel timer.key).waiting.length < t.waiting.length :=
  List.length_filter_lt_length_iff_exists.mpr ⟨timer, h, by simp⟩

/-- Cancelling a key that does not wait changes nothing. -/
theorem cancel_of_due? (h : t.due? key = none) : t.cancel key = t := by
  rw [due?, Option.map_eq_none_iff, List.find?_eq_none] at h
  rcases t with ⟨now, waiting⟩
  refine congrArg (Timers.mk now) (List.filter_eq_self.mpr fun x hx => ?_)
  simpa using h x hx

/-- So does scheduling it, which makes it due one delay from now. -/
theorem due?_schedule (t : Timers) (delay : Int) (key key' : String) :
    (t.schedule delay key).due? key' =
      if key' = key then some (t.now + delay) else t.due? key' := by
  have hcancel := due?_cancel t key key'
  simp only [due?, schedule, List.find?_append] at hcancel ⊢
  split_ifs at hcancel ⊢ with h
  · rw [Option.map_eq_none_iff.mp hcancel]
    simp [h]
  · rw [← hcancel, List.find?_cons_of_neg (by simpa using Ne.symm h), List.find?_nil,
      Option.or_none]

theorem due?_goOff (t : Timers) (timer : Timer) (key : String) :
    (t.goOff timer).due? key = if key = timer.key then none else t.due? key :=
  due?_cancel t timer.key key

/-! ### One timer for each key -/

theorem nodup_keys_cancel (h : t.keys.Nodup) (key : String) : (t.cancel key).keys.Nodup :=
  h.sublist (List.filter_sublist.map Timer.key)

/-- A key that is scheduled again has one timer still. -/
theorem nodup_keys_schedule (h : t.keys.Nodup) (delay : Int) (key : String) :
    (t.schedule delay key).keys.Nodup := by
  have hgone : key ∉ (t.cancel key).keys := by
    rw [mem_keys_iff, due?_cancel, if_pos rfl]
    simp
  have hkeys : (t.schedule delay key).keys = (t.cancel key).keys.concat key := by
    simp [keys, schedule]
  rw [hkeys]
  exact (nodup_keys_cancel h key).concat hgone

/-- A key is due when its timer is. -/
theorem due?_of_mem (h : t.keys.Nodup) (ht : timer ∈ t.waiting) :
    t.due? timer.key = some timer.due := by
  rcases t with ⟨now, waiting⟩
  simp only [due?, keys] at h ht ⊢
  induction waiting with
  | nil => simp at ht
  | cons x rest ih =>
    rw [List.map_cons, List.nodup_cons] at h
    rcases List.mem_cons.mp ht with rfl | hin
    · simp
    · have hne : x.key ≠ timer.key := fun he => h.1 (he ▸ List.mem_map_of_mem hin)
      rw [List.find?_cons_of_neg (by simpa using hne)]
      exact ih h.2 hin

/-! ### The next timer -/

/-- What `next?` looks for among some timers, given the best one so far. -/
theorem foldl_next (limit : Int) (waiting : List Timer) (best : Option Timer)
    (hbest : ∀ b, best = some b → b.due ≤ limit) :
    let found := waiting.foldl (fun best x =>
      if x.due ≤ limit && best.all fun b => x.due < b.due then some x else best) best
    (∀ b, found = some b → (b ∈ waiting ∨ best = some b) ∧ b.due ≤ limit) ∧
      (found = none → best = none ∧ ∀ x ∈ waiting, limit < x.due) := by
  induction waiting generalizing best with
  | nil => exact ⟨fun b hb => ⟨Or.inr hb, hbest b hb⟩, fun h => ⟨h, by simp⟩⟩
  | cons x rest ih =>
    rw [List.foldl_cons]
    split_ifs with hx
    · obtain ⟨hdue, -⟩ := Bool.and_eq_true_iff.mp hx
      obtain ⟨hsome, hnone⟩ := ih (some x) fun b hb => by
        rw [← Option.some.inj hb]
        exact of_decide_eq_true hdue
      refine ⟨fun b hb => ⟨?_, (hsome b hb).2⟩, fun h => by simpa using (hnone h).1⟩
      rcases (hsome b hb).1 with hin | heq
      · exact Or.inl (List.mem_cons_of_mem x hin)
      · exact Or.inl (Option.some.inj heq ▸ List.mem_cons_self ..)
    · obtain ⟨hsome, hnone⟩ := ih best hbest
      refine ⟨fun b hb => ⟨?_, (hsome b hb).2⟩, fun h => ⟨(hnone h).1, fun y hy => ?_⟩⟩
      · exact (hsome b hb).1.imp_left (List.mem_cons_of_mem x)
      · rcases List.mem_cons.mp hy with rfl | hin
        · simpa [(hnone h).1] using hx
        · exact (hnone h).2 y hin

/-- The next timer is one that waits and is due. -/
theorem mem_of_next? {limit : Int} (h : t.next? limit = some timer) :
    timer ∈ t.waiting ∧ timer.due ≤ limit := by
  obtain ⟨hin, hdue⟩ := (foldl_next limit t.waiting none (by simp)).1 timer h
  exact ⟨hin.resolve_right (by simp), hdue⟩

/-- If there is none, all are due later. -/
theorem lt_due_of_next?_eq_none {limit : Int} (h : t.next? limit = none) {due : Int}
    (hdue : t.due? key = some due) : limit < due := by
  obtain ⟨timer, hfind, rfl⟩ := Option.map_eq_some_iff.mp hdue
  exact ((foldl_next limit t.waiting none (by simp)).2 h).2 timer (List.mem_of_find?_eq_some hfind)

end Timers
end SymbolAtlas
