import SymbolAtlas.Proofs.DebouncerDeeds

/-!
# Every action of a debouncer comes to an end

A callback may use the debouncer that runs it, which may run further callbacks.  There are only so
many actions left, and between two of them a flush or a move of the clock can only run keys that
wait, so each tick leaves less work (`Debouncer.Moment.work_tick_lt`), and after as many ticks as
`work` says nothing is under way.  What is under way further down waits for what is above it to end
(`Debouncer.Moment.leads_finish`), so actions asked for one after the other are carried out one
after the other, from outside just as by a callback (`Debouncer.Moment.leads_step`).
-/

namespace SymbolAtlas
namespace Debouncer

/-! ### What is left to do -/

namespace Task

@[simp] theorem actionCount_nil : actionCount [] = 0 := rfl

@[simp] theorem actionCount_cons (task : Task) (tasks : List Task) :
    actionCount (task :: tasks) = task.actions.length + actionCount tasks := by
  simp [actionCount]

theorem actionCount_append (tasks tasks' : List Task) :
    actionCount (tasks ++ tasks') = actionCount tasks + actionCount tasks' := by
  simp [actionCount]

@[simp] theorem totalLength_nil : totalLength [] = 0 := rfl

@[simp] theorem totalLength_cons (task : Task) (tasks : List Task) :
    totalLength (task :: tasks) = task.length + totalLength tasks := rfl

theorem totalLength_append (tasks tasks' : List Task) :
    totalLength (tasks ++ tasks') = totalLength tasks + totalLength tasks' := by
  induction tasks with
  | nil => simp
  | cons task tasks ih =>
    rw [List.cons_append, totalLength_cons, totalLength_cons, ih, Nat.add_assoc]

/-- Every task takes at least one tick. -/
theorem length_pos (task : Task) : 0 < task.length := by cases task <;> simp [length]

end Task

/-- The actions of a reaction are used up with it. -/
theorem flatten_putIn {key : String} {reaction : List Action} {later : List (List Action)}
    {es : List (String × List (List Action))} (h : es.lookup key = some (reaction :: later)) :
    ((Entries.putIn key later es).map Prod.snd).flatten.flatten.length + reaction.length =
      (es.map Prod.snd).flatten.flatten.length := by
  induction es with
  | nil => simp at h
  | cons e es ih =>
    rw [List.lookup_cons] at h
    rw [Entries.putIn]
    by_cases he : e.1 = key
    · obtain hqueue : e.2 = reaction :: later := by simpa [he] using h
      simp [he, hqueue]
      omega
    · have hne : (key == e.1) = false := by simpa using Ne.symm he
      rw [hne] at h
      have := ih h
      simp [he] at this ⊢
      omega

/-- A reaction is carried out once. -/
theorem reactionCount_run (d : Debouncer) (key : String) (trigger : Trigger) :
    (d.run key trigger).1.reactionCount + (d.run key trigger).2.length = d.reactionCount := by
  unfold run
  dsimp only
  split
  · exact flatten_putIn ‹_›
  · rfl

end Debouncer

theorem Loop.waitingCount_callLater (l : Loop) (delay : Int) (key : String) :
    (l.callLater delay key).waitingCount = l.waitingCount + 1 := by
  simp [waitingCount, callLater]

/-- One call less is waiting once a waiting one is settled. -/
theorem Loop.waitingCount_mark (l : Loop) (handle : Nat) {state : CallState}
    (hstate : state ≠ .waiting) :
    (l.mark handle state).waitingCount ≤ l.waitingCount ∧
      ∀ call, l.Waits handle call → (l.mark handle state).waitingCount < l.waitingCount := by
  rcases l with ⟨now, calls⟩
  simp only [mark, waitingCount, Waits]
  induction calls generalizing handle with
  | nil => simp
  | cons first rest ih =>
    cases handle with
    | zero =>
      have hzero : (first :: rest).modify 0 (fun c => { c with state := state }) =
          { first with state := state } :: rest := rfl
      rw [hzero, List.countP_cons, List.countP_cons]
      refine ⟨by simp [hstate], fun call hw => ?_⟩
      obtain ⟨rfl, hwaiting⟩ : first = call ∧ call.state = .waiting := by simpa using hw
      simp [hstate, hwaiting]
    | succ handle =>
      obtain ⟨hle, hlt⟩ := ih handle
      have hsucc : (first :: rest).modify (handle + 1) (fun c => { c with state := state }) =
          first :: rest.modify handle (fun c => { c with state := state }) := rfl
      rw [hsucc, List.countP_cons, List.countP_cons]
      refine ⟨by omega, fun call hw => ?_⟩
      have := hlt call (by simpa using hw)
      omega

namespace Debouncer

theorem size_erase_le (es : Entries String Nat) (key : String) : (es.erase key).size ≤ es.size :=
  List.length_filter_le ..

/-- There are fewer handles without that of a key. -/
theorem size_erase_lt {es : Entries String Nat} {key : String} {v : Nat}
    (h : es.get? key = some v) : (es.erase key).size < es.size := by
  have hin : key ∈ es.keys := by_contra fun hout => by
    rw [Entries.get?_eq_none_iff.mpr hout] at h
    cases h
  obtain ⟨e, he, hkey⟩ := List.mem_map.mp hin
  exact List.length_filter_lt_length_iff_exists.mpr ⟨e, he, by simp [hkey]⟩

/-- Cancelling leaves no more waits than before. -/
theorem waitCount_cancel_le (d : Debouncer) (key : String) :
    (d.cancel key).1.waitCount ≤ d.waitCount := by
  have hsize := size_erase_le d.handles key
  rw [waitCount, waitCount, handles_cancel, loop_cancel]
  cases d.handles.get? key with
  | none => simpa using hsize
  | some handle =>
    have hcount : (d.loop.mark handle .cancelled).waitingCount ≤ d.loop.waitingCount :=
      (d.loop.waitingCount_mark handle (by decide)).1
    exact Nat.add_le_add hsize hcount

/-- And fewer if the key was waiting. -/
theorem waitCount_cancel_lt {d : Debouncer} {key : String} {handle : Nat}
    (h : d.handles.get? key = some handle) : (d.cancel key).1.waitCount < d.waitCount := by
  have hsize := size_erase_lt h
  rw [waitCount, waitCount, handles_cancel, loop_cancel, h]
  exact Nat.add_lt_add_of_lt_of_le hsize (d.loop.waitingCount_mark handle (by decide)).1

/-- A wait adds a handle and a call. -/
theorem waitCount_wait_le (d : Debouncer) (key : String) :
    (d.wait key).waitCount ≤ d.waitCount + 2 := by
  have hcancel := d.waitCount_cancel_le key
  simp only [waitCount, handles_cancel] at hcancel
  simp only [waitCount, handles_wait, loop_wait, Loop.waitingCount_callLater, Entries.putLast,
    Entries.size, List.length_append, List.length_singleton] at hcancel ⊢
  omega

@[simp] theorem waitCount_run (d : Debouncer) (key : String) (trigger : Trigger) :
    (d.run key trigger).1.waitCount = d.waitCount := by
  simp [waitCount]

@[simp] theorem reactionCount_cancel (d : Debouncer) (key : String) :
    (d.cancel key).1.reactionCount = d.reactionCount := by
  rw [cancel_eq]
  rfl

/-- A call that is made is one less. -/
theorem waitCount_fire_lt {d : Debouncer} {call : LaterCall} {handle : Nat}
    (hw : d.loop.Waits handle call) : (d.fire call handle).1.waitCount < d.waitCount := by
  have hcount := (d.loop.waitingCount_mark handle (by decide : CallState.made ≠ .waiting)).2 call hw
  have hsize := size_erase_le d.handles call.key
  rw [fire, waitCount_run]
  exact Nat.add_lt_add_of_le_of_lt hsize hcount

theorem waitCount_cancelAll_le (keys : List String) (d : Debouncer) :
    (d.cancelAll keys).waitCount ≤ d.waitCount := by
  induction keys generalizing d with
  | nil => exact Nat.le_refl _
  | cons key keys ih => exact Nat.le_trans (ih _) (d.waitCount_cancel_le key)

/-! ### Each tick leaves less work -/

/-- What an action may add to the work that is left: at most one handle, one call, and a flush of
all the keys that wait. -/
theorem undertake_bounds (d : Debouncer) (a : Action) :
    (d.undertake a).1.reactionCount + Task.actionCount (d.undertake a).2 ≤ d.reactionCount ∧
      (d.undertake a).1.waitCount ≤ d.waitCount + 2 ∧
      2 * (d.undertake a).1.waitCount + Task.totalLength (d.undertake a).2 ≤
        2 * d.waitCount + (2 * d.waitCount + 5) := by
  cases a with
  | schedule key =>
    simp only [undertake]
    split_ifs
    · have hwait := d.waitCount_wait_le key
      have hsame : (d.wait key).reactionCount = d.reactionCount := d.reactionCount_cancel key
      simp only [Task.actionCount_nil, Task.totalLength_nil]
      omega
    · have hrun := (d.cancel key).1.reactionCount_run key .atOnce
      have hcancel := d.waitCount_cancel_le key
      rw [reactionCount_cancel] at hrun
      simp only [Task.actionCount_cons, Task.actionCount_nil, Task.totalLength_cons,
        Task.totalLength_nil, Task.actions, Task.length, waitCount_run]
      omega
  | cancel key =>
    have hcancel := d.waitCount_cancel_le key
    simp only [undertake, reactionCount_cancel, Task.actionCount_nil, Task.totalLength_nil]
    omega
  | flush key =>
    cases key with
    | none =>
      have hsize : d.pending.length ≤ d.waitCount := by
        simp [pending, Entries.keys, waitCount, Entries.size]
      simp only [undertake, Task.actionCount_cons, Task.actionCount_nil, Task.totalLength_cons,
        Task.totalLength_nil, Task.actions, Task.length, List.length_nil]
      omega
    | some key =>
      simp only [undertake, Task.actionCount_cons, Task.actionCount_nil, Task.totalLength_cons,
        Task.totalLength_nil, Task.actions, Task.length, List.length_nil, List.length_singleton]
      omega
  | dispose =>
    have hsame : d.dispose.reactionCount = d.reactionCount :=
      cancelAll_keeps reactionCount_cancel d.pending d
    have hle : d.dispose.waitCount ≤ d.waitCount := d.waitCount_cancelAll_le d.pending
    simp only [undertake, Task.actionCount_nil, Task.totalLength_nil]
    omega
  | _ =>
    simp only [undertake, Task.actionCount_cons, Task.actionCount_nil, Task.totalLength_cons,
      Task.totalLength_nil, Task.actions, Task.length, List.length_nil]
    omega

/-- Work gets less when an action is used up, or else when handles, calls and tasks get less. -/
theorem bound_lt_of {A A' V V' T T' : Nat}
    (h : A' ≤ A ∧ V' ≤ V ∧ 2 * V' + T' < 2 * V + T ∨
      A' < A ∧ V' ≤ V + 2 ∧ 2 * V' + T' ≤ 2 * V + T + (2 * V + 5)) :
    A' * (2 * (2 * A' + V') + 5) + 2 * V' + T' < A * (2 * (2 * A + V) + 5) + 2 * V + T := by
  rcases h with ⟨hA, hV, hT⟩ | ⟨hA, hV, hT⟩
  · have hmul : A' * (2 * (2 * A' + V') + 5) ≤ A * (2 * (2 * A + V) + 5) :=
      Nat.mul_le_mul hA (by omega)
    omega
  · have hmul : A' * (2 * (2 * A' + V') + 5) ≤ A' * (2 * (2 * A + V) + 5) :=
      Nat.mul_le_mul_left A' (by omega)
    have hone : (A' + 1) * (2 * (2 * A + V) + 5) ≤ A * (2 * (2 * A + V) + 5) :=
      Nat.mul_le_mul_right _ hA
    rw [Nat.add_mul, Nat.one_mul] at hone
    omega

/-- **Each tick leaves less work**, as long as something is under way. -/
theorem Moment.work_tick_lt {m : Moment} (h : m.tasks ≠ []) : m.tick.work < m.work := by
  rcases m with ⟨d, tasks⟩
  cases tasks with
  | nil => exact absurd rfl h
  | cons task tasks =>
    simp only [tick, work, actionCount, Task.actionCount_append, Task.totalLength_append,
      Task.actionCount_cons, Task.totalLength_cons]
    apply bound_lt_of
    cases task with
    | callback actions =>
      cases actions with
      | nil =>
        simp [carryOn, Task.length, Task.actions]
      | cons a rest =>
        by_cases hfail : a = .fail
        · subst hfail
          simp [carryOn, Task.length, Task.actions]
        · obtain ⟨hactions, hwaits, hlength⟩ := d.undertake_bounds a
          rw [carryOn_action d hfail]
          simp only [Task.actionCount_append, Task.totalLength_append, Task.actionCount_cons,
            Task.actionCount_nil, Task.totalLength_cons, Task.totalLength_nil, Task.actions,
            Task.length, List.length_cons]
          omega
    | flushing keys =>
      cases keys with
      | nil => simp [carryOn, Task.length, Task.actions]
      | cons key keys =>
        rw [carryOn_flushing]
        cases hget : d.handles.get? key with
        | none => simp [Task.length, Task.actions]
        | some handle =>
          have hrun := (d.cancel key).1.reactionCount_run key (.flush handle)
          have hlt := waitCount_cancel_lt hget
          rw [reactionCount_cancel] at hrun
          simp only [Option.elim_some, doing, waitCount_run, Task.actionCount_cons,
            Task.actionCount_nil, Task.totalLength_cons, Task.totalLength_nil, Task.actions,
            Task.length, List.length_cons, List.length_nil]
          omega
    | advancing target =>
      rw [carryOn_advancing]
      cases hnext : d.loop.next? target with
      | none =>
        have hreactions : (d.doing (.setClock target)).reactionCount = d.reactionCount := rfl
        have hwaits : (d.doing (.setClock target)).waitCount = d.waitCount := rfl
        simp only [Option.elim_none, Task.actionCount_nil, Task.totalLength_nil, Task.actions,
          Task.length, List.length_nil]
        omega
      | some x =>
        obtain ⟨hw, -⟩ := (d.loop.next?_spec target).1 x.1 x.2 hnext
        have hlt := waitCount_fire_lt hw
        have hrun : (d.fire x.1 x.2).1.reactionCount + (d.fire x.1 x.2).2.length =
            d.reactionCount := reactionCount_run ..
        simp only [Option.elim_some, doing, Task.actionCount_cons, Task.actionCount_nil,
          Task.totalLength_cons, Task.totalLength_nil, Task.actions, Task.length, List.length_nil]
        omega

/-! ### One action after the other -/

namespace Moment

/-- When nothing is under way, nothing happens. -/
theorem after_idle (ticks : Nat) (d : Debouncer) : after ticks ⟨d, []⟩ = ⟨d, []⟩ := by
  induction ticks with
  | zero => rfl
  | succ ticks ih => exact ih

theorem after_add (ticks ticks' : Nat) (m : Moment) :
    after (ticks + ticks') m = after ticks' (after ticks m) := by
  induction ticks generalizing m with
  | zero => rw [Nat.zero_add, after]
  | succ ticks ih => rw [Nat.succ_add, after, ih, after]

theorem after_succ (ticks : Nat) (m : Moment) : after (ticks + 1) m = (after ticks m).tick :=
  after_add ticks 1 m

/-- Some ticks lead from one moment to the other. -/
def Leads (m m' : Moment) : Prop := ∃ ticks, after ticks m = m'

theorem Leads.refl (m : Moment) : Leads m m := ⟨0, rfl⟩

/-- What comes of the next moment comes of this one. -/
theorem Leads.tick {m m' : Moment} (h : Leads m.tick m') : Leads m m' := by
  obtain ⟨ticks, hticks⟩ := h
  exact ⟨ticks + 1, hticks⟩

theorem Leads.trans {m₁ m₂ m₃ : Moment} (h : Leads m₁ m₂) (h' : Leads m₂ m₃) : Leads m₁ m₃ := by
  obtain ⟨ticks, rfl⟩ := h
  obtain ⟨ticks', rfl⟩ := h'
  exact ⟨ticks + ticks', after_add ..⟩

/-- What is further down does not take part in a tick. -/
theorem tick_append (d : Debouncer) (task : Task) (tasks below : List Task) :
    tick ⟨d, task :: tasks ++ below⟩ =
      ⟨(tick ⟨d, task :: tasks⟩).debouncer, (tick ⟨d, task :: tasks⟩).tasks ++ below⟩ := by
  simp [tick]

/-- The tasks above some others come to an end, with as many ticks as they have work. -/
theorem leads_after {fuel : Nat} {m : Moment} (h : m.work ≤ fuel) (below : List Task) :
    Leads ⟨m.debouncer, m.tasks ++ below⟩ ⟨(after fuel m).debouncer, below⟩ := by
  induction fuel generalizing m with
  | zero =>
    rcases m with ⟨d, tasks⟩
    cases tasks with
    | nil => exact Leads.refl _
    | cons task tasks =>
      have := task.length_pos
      simp only [work, Task.totalLength_cons] at h
      omega
  | succ fuel ih =>
    rcases m with ⟨d, tasks⟩
    cases tasks with
    | nil =>
      rw [after_idle]
      exact Leads.refl _
    | cons task tasks =>
      have hlt : (tick ⟨d, task :: tasks⟩).work < _ := work_tick_lt (by simp)
      refine Leads.tick ?_
      rw [tick_append]
      exact ih (Nat.le_of_lt_succ (Nat.lt_of_lt_of_le hlt h))

/-- **What is under way comes to an end**, whatever waits below it. -/
theorem leads_finish (m : Moment) (below : List Task) :
    Leads ⟨m.debouncer, m.tasks ++ below⟩ ⟨m.finish, below⟩ :=
  leads_after (Nat.le_refl _) below

/-- Where nothing is under way is where everything ends. -/
theorem finish_eq_of_leads {m : Moment} {d : Debouncer} (h : Leads m ⟨d, []⟩) : m.finish = d := by
  have hend := m.leads_finish []
  rw [List.append_nil] at hend
  obtain ⟨ticks, hticks⟩ := h
  obtain ⟨ticks', hticks'⟩ := hend
  -- both moments are idle, so the later of them is the earlier one
  have hlater : after (ticks + ticks') m = ⟨d, []⟩ := by rw [after_add, hticks, after_idle]
  have hlater' : after (ticks + ticks') m = ⟨m.finish, []⟩ := by
    rw [Nat.add_comm, after_add, hticks', after_idle]
  exact congrArg debouncer (hlater'.symm.trans hlater)

/-- **Actions are carried out one after the other**, each with all that follows from it. -/
theorem leads_step (d : Debouncer) {a : Action} (h : a ≠ .fail) (rest : List Action)
    (below : List Task) :
    Leads ⟨d, .callback (a :: rest) :: below⟩ ⟨(d.step a).1, .callback rest :: below⟩ := by
  refine Leads.tick ?_
  have htick : tick ⟨d, .callback (a :: rest) :: below⟩ =
      ⟨(d.undertake a).1, (d.undertake a).2 ++ (.callback rest :: below)⟩ := by
    rw [tick]
    simp only [carryOn_action d h, List.append_assoc, List.singleton_append]
  rw [htick]
  exact leads_finish ⟨(d.undertake a).1, (d.undertake a).2⟩ _

end Moment

end Debouncer
end SymbolAtlas
