import SymbolAtlas.Proofs.DebouncerEnds

/-!
# One live timer for each key

The moments of a program are the states of a debouncer, from tick to tick, while actions asked for
from outside are carried out one after the other (`Debouncer.moment`).  At each of them the keys
that are pending are the keys with a call waiting in the loop, one for each
(`Debouncer.OneTimerPerKey`).  A call that has been settled stays so and is not run again
(`Debouncer.settled_later`), and a callback that fails leaves nothing behind but its own actions
undone: with its reactions cut short before the failure, the debouncer goes through the same moments
(`Debouncer.calmed_moment`).
-/

namespace SymbolAtlas
namespace Debouncer

/-- The moment after some ticks, when actions are asked for one after the other. -/
def moment (d : Debouncer) (program : List Action) (ticks : Nat) : Moment :=
  Moment.after ticks ⟨d, [.callback program]⟩

theorem moment_succ (d : Debouncer) (program : List Action) (n : Nat) :
    d.moment program (n + 1) = (d.moment program n).tick :=
  Moment.after_succ n _

/-- From one moment to the next there is one deed. -/
theorem debouncer_moment_succ (d : Debouncer) (program : List Action) (n : Nat) :
    (d.moment program (n + 1)).debouncer =
      (d.moment program n).debouncer.doing (d.moment program n).deed := by
  rw [moment_succ, Moment.debouncer_tick]

/-- What no deed changes is the same at all moments. -/
theorem moment_keeps {α : Type} {f : Debouncer → α} (h : ∀ d deed, f (d.doing deed) = f d)
    (d : Debouncer) (program : List Action) (n : Nat) : f (d.moment program n).debouncer = f d := by
  induction n with
  | zero => rfl
  | succ n ih => rw [debouncer_moment_succ, h, ih]

section Moments

variable {d : Debouncer} {program : List Action}

/-- A sound debouncer is sound at every moment. -/
theorem Sound.moment (hd : d.Sound) (program : List Action) (n : Nat) :
    (d.moment program n).debouncer.Sound := by
  induction n with
  | zero => exact hd
  | succ n ih =>
    rw [debouncer_moment_succ]
    exact ih.doing (Moment.possible_deed _)

/-- Handles are not given back. -/
theorem nextHandle_doing_le (d : Debouncer) (deed : Deed) :
    d.loop.nextHandle ≤ (d.doing deed).loop.nextHandle := by
  by_cases hwait : ∃ key, deed = .wait key
  · obtain ⟨key, rfl⟩ := hwait
    rw [nextHandle_wait]
    omega
  · exact Nat.le_of_eq (d.nextHandle_doing_of_ne_wait fun key hkey => hwait ⟨key, hkey⟩).symm

/-- So they only grow. -/
theorem nextHandle_moment_le (d : Debouncer) (program : List Action) {i j : Nat} (h : i ≤ j) :
    (d.moment program i).debouncer.loop.nextHandle ≤
      (d.moment program j).debouncer.loop.nextHandle := by
  induction h with
  | refl => exact Nat.le_refl _
  | step _ ih =>
    rw [debouncer_moment_succ]
    exact Nat.le_trans ih (nextHandle_doing_le ..)

/-! ### When a key was scheduled last -/

/-- Of the ticks up to a moment, this one started the wait of a key last. -/
def LastWait (m : Nat → Moment) (n : Nat) (key : String) (i : Nat) : Prop :=
  i < n ∧ (m i).deed = .wait key ∧ ∀ j, i < j → j < n → (m j).deed ≠ .wait key

/-- **A call that waits was asked for when its key was scheduled last.** -/
theorem Sound.lastWait (hd : d.Sound) (n : Nat) {handle : Nat} {call : LaterCall}
    (hw : (d.moment program n).debouncer.loop.Waits handle call)
    (hnew : ∀ handle call, ¬ d.loop.Waits handle call) :
    ∃ i, LastWait (d.moment program) n call.key i ∧
      call.due = (d.moment program i).debouncer.loop.now + d.delay ∧
      handle = (d.moment program i).debouncer.loop.nextHandle := by
  induction n with
  | zero => exact absurd hw (hnew handle call)
  | succ n ih =>
    rw [debouncer_moment_succ] at hw
    have hdelay := moment_keeps delay_doing d program n
    rcases ((hd.moment program n).tied.waits_doing (Moment.possible_deed _)).mp hw with
      ⟨hkept, hwas⟩ | ⟨hwait, hhandle, hcall⟩
    · obtain ⟨i, ⟨hi, hdeed, hlast⟩, hdue, hhandle⟩ := ih hwas
      refine ⟨i, ⟨by omega, hdeed, fun j hij hj => ?_⟩, hdue, hhandle⟩
      rcases Nat.lt_succ_iff_lt_or_eq.mp hj with hlt | rfl
      · exact hlast j hij hlt
      · intro hwait
        rw [hwait] at hkept
        exact hkept rfl
    · refine ⟨n, ⟨by omega, hwait, fun j hnj hj => by omega⟩, ?_, hhandle⟩
      rw [hcall, hdelay]

/-! ### What becomes of a call -/

/-- **A call that does not wait any more is settled for good**: it never waits again, and nothing
is run on its account. -/
theorem settled_later (hd : d.Sound) {n later : Nat} {handle : Nat} (hle : n ≤ later)
    (hknown : handle < (d.moment program n).debouncer.loop.nextHandle)
    (hsettled : ∀ call, ¬ (d.moment program n).debouncer.loop.Waits handle call) :
    (∀ call, ¬ (d.moment program later).debouncer.loop.Waits handle call) ∧
      (d.moment program later).debouncer.runsBy handle =
        (d.moment program n).debouncer.runsBy handle := by
  induction hle with
  | refl => exact ⟨hsettled, rfl⟩
  | @step later hle ih =>
    obtain ⟨hstill, hruns⟩ := ih
    have hsound := hd.moment program later
    have hpossible := (d.moment program later).possible_deed
    have hold := Nat.lt_of_lt_of_le hknown (nextHandle_moment_le d program hle)
    rw [debouncer_moment_succ]
    refine ⟨fun call hw => ?_, ?_⟩
    · rcases (hsound.tied.waits_doing hpossible).mp hw with ⟨-, hwas⟩ | ⟨-, rfl, -⟩
      · exact hstill call hwas
      · exact Nat.lt_irrefl _ hold
    · rw [hsound.runsBy_doing_of_not_waits hpossible hstill, hruns]

/-- How the wait of a key ends with a tick.  If it is the turn of the key in a flush, or if the loop
makes the call, the callback is run then, and never again on account of this call; if the wait is
given up, it is never run. -/
structure Removed (m : Nat → Moment) (n : Nat) (key : String) (handle : Nat) : Prop where
  gone : ∀ later, n < later → (m later).debouncer.handles.get? key ≠ some handle
  outcome :
    ((m n).deed = .flush key handle ∨ ∃ call, (m n).deed = .fire call handle) ∧
        (∃ run, run.key = key ∧ (m (n + 1)).debouncer.runs = (m n).debouncer.runs ++ [run] ∧
          ∀ later, n < later → (m later).debouncer.runsBy handle = [run]) ∨
      ((m n).deed = .cancel key ∨ (m n).deed = .wait key ∨ (m n).deed = .dispose) ∧
        ∀ later, n < later → (m later).debouncer.runsBy handle = []

/-- A wait that ends does so in one of the two ways. -/
theorem Sound.removed (hd : d.Sound) {n : Nat} {key : String} {handle : Nat}
    (hget : (d.moment program n).debouncer.handles.get? key = some handle)
    (hfrees : (d.moment program n).deed.Frees key) :
    Removed (d.moment program) n key handle := by
  have hsound := hd.moment program n
  have hpossible := (d.moment program n).possible_deed
  obtain ⟨call, hw, hkey⟩ := (hsound.tied key handle).mp hget
  have hsettled : ∀ call', ¬ (d.moment program (n + 1)).debouncer.loop.Waits handle call' := by
    intro call' hw'
    rw [debouncer_moment_succ] at hw'
    rcases (hsound.tied.waits_doing hpossible).mp hw' with ⟨hkept, hwas⟩ | ⟨-, hnew, -⟩
    · rw [hwas.unique hw, hkey] at hkept
      exact hkept hfrees
    · exact absurd hw.lt_nextHandle (by omega)
  have hknown := Nat.lt_of_lt_of_le hw.lt_nextHandle
    (nextHandle_moment_le d program (Nat.le_succ n))
  have hlater := fun later (h : n < later) => settled_later hd h hknown hsettled
  have hruns : (d.moment program (n + 1)).debouncer.runsBy handle =
      ((d.moment program n).deed.run? (d.moment program n).debouncer).toList.filter
        (·.trigger.handle? = some handle) := by
    rw [debouncer_moment_succ, runsBy_doing, hsound.unrun handle call hw, List.nil_append]
  have hlog := (d.moment program n).debouncer.runs_doing (d.moment program n).deed
  rw [← debouncer_moment_succ] at hlog
  refine ⟨fun later h hpending => ?_, ?_⟩
  · obtain ⟨call', hw', -⟩ := ((hd.moment program later).tied key handle).mp hpending
    exact (hlater later h).1 call' hw'
  · rcases hsound.freed hpossible hget hfrees with ⟨hdeed, r, hr, hrkey, hhandle⟩ | ⟨hdeed, hr⟩
    · rw [hr] at hruns hlog
      refine Or.inl ⟨hdeed, r, hrkey, hlog, fun later h => ?_⟩
      rw [(hlater later h).2, hruns]
      simp [hhandle]
    · rw [hr] at hruns
      refine Or.inr ⟨hdeed, fun later h => ?_⟩
      rw [(hlater later h).2, hruns]
      rfl

/-! ### The account of a moment -/

/-- What holds at a moment of those that wait. -/
structure OneTimerPerKey (delay : Int) (m : Nat → Moment) (n : Nat) : Prop where
  /-- The keys that are pending are those with a call waiting in the loop. -/
  pending_iff : ∀ key, key ∈ (m n).debouncer.pending ↔
    ∃ handle call, (m n).debouncer.loop.Waits handle call ∧ call.key = key
  /-- No key has two such calls. -/
  unique : ∀ handle handle' call call', (m n).debouncer.loop.Waits handle call →
    (m n).debouncer.loop.Waits handle' call' → call.key = call'.key → handle = handle'
  /-- The call is due one delay after the key was scheduled last. -/
  due : ∀ handle call, (m n).debouncer.loop.Waits handle call →
    ∃ i, LastWait m n call.key i ∧ call.due = (m i).debouncer.loop.now + delay
  /-- The keys are listed once each, in the order in which they were scheduled last. -/
  ordered : (m n).debouncer.pending.Pairwise fun key key' =>
    ∃ i i', LastWait m n key i ∧ LastWait m n key' i' ∧ i < i'
  /-- Cancelling a key tells whether it was pending. -/
  answer : ∀ key, ((m n).debouncer.step (.cancel key)).2 =
    some (decide (key ∈ (m n).debouncer.pending))
  /-- A key keeps waiting for its call, or its wait ends in one of two ways. -/
  removal : ∀ key handle, (m n).debouncer.handles.get? key = some handle →
    (m (n + 1)).debouncer.handles.get? key = some handle ∨ Removed m n key handle

/-- The pending keys are those with handles. -/
theorem mem_pending_iff {d : Debouncer} {key : String} :
    key ∈ d.pending ↔ ∃ handle, d.handles.get? key = some handle := by
  rw [← Option.isSome_iff_exists, Option.isSome_iff_ne_none, ne_eq, Entries.get?_eq_none_iff,
    not_not]
  rfl

/-- **At every moment of a new debouncer there is one timer for each key that waits.** -/
theorem oneTimerPerKey_new (delay : Int) (clocked : Bool)
    (reactions : Entries String (List (List Action))) (program : List Action) (n : Nat) :
    OneTimerPerKey (max delay 0) ((new delay clocked reactions).moment program) n := by
  have hnew := sound_new delay clocked reactions
  have hempty : ∀ handle call, ¬ (new delay clocked reactions).loop.Waits handle call := by
    intro handle call hw
    simp [new, Loop.start, Loop.Waits] at hw
  have hsound := hnew.moment program n
  constructor
  · intro key
    rw [mem_pending_iff]
    exact exists_congr fun handle => hsound.tied key handle
  · exact fun handle handle' call call' hw hw' hkey => hsound.tied.handle_eq hw hw' hkey
  · intro handle call hw
    obtain ⟨i, hi, hdue, -⟩ := hnew.lastWait n hw hempty
    exact ⟨i, hi, hdue⟩
  · rw [pending, Entries.keys, List.pairwise_map]
    refine hsound.increasing.imp_of_mem fun {x y} hx hy hlt => ?_
    obtain ⟨call, hw, hkey⟩ := (hsound.tied x.1 x.2).mp (Entries.get?_of_mem hsound.nodup hx)
    obtain ⟨call', hw', hkey'⟩ := (hsound.tied y.1 y.2).mp (Entries.get?_of_mem hsound.nodup hy)
    obtain ⟨i, hi, -, hhandle⟩ := hnew.lastWait n hw hempty
    obtain ⟨i', hi', -, hhandle'⟩ := hnew.lastWait n hw' hempty
    rw [hkey] at hi
    rw [hkey'] at hi'
    refine ⟨i, i', hi, hi', Nat.lt_of_not_le fun hle => ?_⟩
    have := nextHandle_moment_le (new delay clocked reactions) program hle
    omega
  · intro key
    have hanswer : (((new delay clocked reactions).moment program n).debouncer.step
        (.cancel key)).2 =
        some (((new delay clocked reactions).moment program n).debouncer.cancel key).2.isSome := rfl
    rw [hanswer, cancel_eq, Option.some.injEq, Bool.eq_iff_iff, decide_eq_true_iff,
      mem_pending_iff, Option.isSome_iff_exists]
  · intro key handle hget
    by_cases hfrees : ((new delay clocked reactions).moment program n).deed.Frees key
    · exact Or.inr (hnew.removed hget hfrees)
    · rw [debouncer_moment_succ, get?_doing]
      exact Or.inl (Or.inl ⟨hfrees, hget⟩)

end Moments

/-! ### Callbacks that fail -/

/-- The actions ahead of the first failure. -/
def beforeFailure (actions : List Action) : List Action := actions.takeWhile (· ≠ .fail)

/-- The same debouncer with callbacks that return where they would fail. -/
def calmed (d : Debouncer) : Debouncer :=
  { d with reactions := ⟨d.reactions.toList.map fun e => (e.1, e.2.map beforeFailure)⟩ }

/-- The same task, with a callback that returns where it would fail. -/
def Task.calmed : Task → Task
  | .callback actions => .callback (beforeFailure actions)
  | .flushing keys => .flushing keys
  | .advancing target => .advancing target

/-- The same moment with callbacks that return where they would fail. -/
def Moment.calmed (m : Moment) : Moment := ⟨m.debouncer.calmed, m.tasks.map Task.calmed⟩

/-- Each reaction is cut short by itself. -/
theorem get?_calmed (d : Debouncer) (key : String) :
    d.calmed.reactions.get? key = (d.reactions.get? key).map (List.map beforeFailure) := by
  simp only [calmed, Entries.get?]
  induction d.reactions.toList with
  | nil => rfl
  | cons e es ih =>
    rw [List.map_cons, List.lookup_cons, List.lookup_cons, ih]
    cases key == e.1 <;> rfl

theorem calmed_put (reactions : Entries String (List (List Action))) (key : String)
    (later : List (List Action)) :
    (Entries.putIn key later reactions.toList).map (fun e => (e.1, e.2.map beforeFailure)) =
      Entries.putIn key (later.map beforeFailure)
        (reactions.toList.map fun e => (e.1, e.2.map beforeFailure)) := by
  induction reactions.toList with
  | nil => rfl
  | cons e es ih =>
    rw [List.map_cons, Entries.putIn, Entries.putIn]
    split_ifs
    · rfl
    · rw [List.map_cons, ih]

/-- A run uses up a reaction. -/
theorem run_of_reaction {d : Debouncer} {key : String} {reaction : List Action}
    {later : List (List Action)} (h : d.reactions.get? key = some (reaction :: later))
    (trigger : Trigger) :
    d.run key trigger =
      ({ d with
          reactions := d.reactions.put key later
          runs := d.runs ++ [⟨key, d.loop.now, trigger⟩] }, reaction) := by
  simp [run, h]

/-- A run without one is only noted. -/
theorem run_of_no_reaction {d : Debouncer} {key : String}
    (h : ∀ reaction later, d.reactions.get? key ≠ some (reaction :: later)) (trigger : Trigger) :
    d.run key trigger = ({ d with runs := d.runs ++ [⟨key, d.loop.now, trigger⟩] }, []) := by
  unfold run
  dsimp only
  split
  · exact absurd ‹_› (h _ _)
  · rfl

/-- A run is the same, with its actions cut short. -/
theorem run_calmed (d : Debouncer) (key : String) (trigger : Trigger) :
    d.calmed.run key trigger =
      ((d.run key trigger).1.calmed, beforeFailure (d.run key trigger).2) := by
  have hget := d.get?_calmed key
  by_cases h : ∃ reaction later, d.reactions.get? key = some (reaction :: later)
  · obtain ⟨reaction, later, h⟩ := h
    rw [h, Option.map_some, List.map_cons] at hget
    rw [run_of_reaction h, run_of_reaction hget]
    simp only [calmed, Entries.put, calmed_put]
  · have hnone : ∀ reaction later, d.reactions.get? key ≠ some (reaction :: later) :=
      fun reaction later hsome => h ⟨reaction, later, hsome⟩
    have hcalmed : ∀ reaction later,
        d.calmed.reactions.get? key ≠ some (reaction :: later) := fun reaction later hsome => by
      rw [hget, Option.map_eq_some_iff] at hsome
      obtain ⟨queue, hqueue, hmap⟩ := hsome
      cases queue with
      | nil => cases hmap
      | cons first rest => exact hnone first rest hqueue
    rw [run_of_no_reaction hnone, run_of_no_reaction hcalmed]
    rfl

theorem cancel_calmed (d : Debouncer) (key : String) :
    d.calmed.cancel key = ((d.cancel key).1.calmed, (d.cancel key).2) := by
  rw [cancel_eq, cancel_eq]
  rfl

theorem wait_calmed (d : Debouncer) (key : String) : d.calmed.wait key = (d.wait key).calmed := by
  rw [wait, cancel_calmed]
  rfl

theorem cancelAll_calmed (keys : List String) (d : Debouncer) :
    d.calmed.cancelAll keys = (d.cancelAll keys).calmed := by
  induction keys generalizing d with
  | nil => rfl
  | cons key keys ih => rw [cancelAll_cons, cancel_calmed, ih, cancelAll_cons]

theorem fire_calmed (d : Debouncer) (call : LaterCall) (handle : Nat) :
    d.calmed.fire call handle =
      ((d.fire call handle).1.calmed, beforeFailure (d.fire call handle).2) :=
  run_calmed { d with
    loop := (d.loop.mark handle .made).setClock call.due
    handles := d.handles.erase call.key } call.key (.timer handle)

/-- Actions begin alike. -/
theorem undertake_calmed (d : Debouncer) (a : Action) :
    d.calmed.undertake a = ((d.undertake a).1.calmed, (d.undertake a).2.map Task.calmed) := by
  cases a with
  | schedule key =>
    have hclocked : d.calmed.clocked = d.clocked := rfl
    simp only [undertake, hclocked, wait_calmed, cancel_calmed, run_calmed]
    split_ifs <;> rfl
  | cancel key => simp [undertake, cancel_calmed]
  | flush key => cases key <;> rfl
  | dispose => exact congrArg (·, []) (cancelAll_calmed d.pending d)
  | _ => rfl

/-- Tasks go on alike. -/
theorem carryOn_calmed (d : Debouncer) (task : Task) :
    d.calmed.carryOn task.calmed =
      ((d.carryOn task).1.calmed, (d.carryOn task).2.map Task.calmed) := by
  cases task with
  | callback actions =>
    cases actions with
    | nil => rfl
    | cons a rest =>
      by_cases h : a = .fail
      · subst h
        rfl
      · have hbefore : beforeFailure (a :: rest) = a :: beforeFailure rest :=
          List.takeWhile_cons_of_pos (by simpa using h)
        rw [Task.calmed, hbefore, carryOn_action _ h, carryOn_action _ h, undertake_calmed,
          List.map_append]
        rfl
  | flushing keys =>
    cases keys with
    | nil => rfl
    | cons key keys =>
      have hhandles : d.calmed.handles = d.handles := rfl
      rw [Task.calmed, carryOn_flushing, carryOn_flushing, hhandles]
      cases d.handles.get? key with
      | none => rfl
      | some handle => simp [doing, cancel_calmed, run_calmed, Task.calmed]
  | advancing target =>
    have hloop : d.calmed.loop = d.loop := rfl
    rw [Task.calmed, carryOn_advancing, carryOn_advancing, hloop]
    cases d.loop.next? target with
    | none => rfl
    | some x => simp [doing, fire_calmed, Task.calmed]

/-- **A failing callback is like one that returns**, from tick to tick. -/
theorem Moment.tick_calmed (m : Moment) : m.calmed.tick = m.tick.calmed := by
  rcases m with ⟨d, tasks⟩
  cases tasks with
  | nil => rfl
  | cons task tasks =>
    simp only [calmed, tick, List.map_cons, carryOn_calmed, List.map_append]

/-- So all moments are alike. -/
theorem calmed_moment (d : Debouncer) (program : List Action) (n : Nat) :
    (d.moment program n).calmed = d.calmed.moment (beforeFailure program) n := by
  induction n with
  | zero => rfl
  | succ n ih => rw [moment_succ, moment_succ, ← ih, Moment.tick_calmed]

/-- Carries out actions one after the other. -/
def steps (d : Debouncer) (actions : List Action) : Debouncer :=
  actions.foldl (fun d a => (d.step a).1) d

/-- The moments of a program lead to what its actions make of the debouncer. -/
theorem moment_steps (d : Debouncer) (program : List Action) :
    ∃ n, d.moment program n = ⟨d.steps (beforeFailure program), []⟩ := by
  change Moment.Leads ⟨d, [.callback program]⟩ ⟨d.steps (beforeFailure program), []⟩
  induction program generalizing d with
  | nil => exact (Moment.Leads.refl _).tick
  | cons a rest ih =>
    by_cases h : a = .fail
    · subst h
      exact (Moment.Leads.refl _).tick
    · have hbefore : beforeFailure (a :: rest) = a :: beforeFailure rest :=
        List.takeWhile_cons_of_pos (by simpa using h)
      rw [hbefore]
      exact (Moment.leads_step d h rest []).trans (ih (d.step a).1)

/-- **The debouncer has one live timer for each pending key**, at every moment of every program,
with a loop or without one, and whatever the callbacks do to the debouncer that runs them.  A wait
ends with one run of the callback or with none at all.  Callbacks that fail are to everybody else
like callbacks that return at that point: all moments are the same.  And every program comes to its
end, where its actions have been carried out one after the other. -/
theorem one_live_timer_per_key (delay : Int) (clocked : Bool)
    (reactions : Entries String (List (List Action))) (program : List Action) :
    let d := new delay clocked reactions
    (∀ n, OneTimerPerKey (max delay 0) (d.moment program) n) ∧
      (∀ n, (d.moment program n).calmed = d.calmed.moment (beforeFailure program) n) ∧
      ∃ n, d.moment program n = ⟨d.steps (beforeFailure program), []⟩ :=
  ⟨oneTimerPerKey_new delay clocked reactions program, calmed_moment _ program,
    moment_steps _ program⟩

/-- While all keys are flushed, the callback of `a` schedules `a` again, gives up `b` before its
turn, and fails before it could dispose of everything. -/
example :
    let d := new 5 true (.ofList [("a", [[.schedule "a", .cancel "b", .fail, .dispose]])])
    let d := d.steps [.schedule "a", .schedule "b", .schedule "c", .advance 3, .flush none]
    d.runs = [⟨"a", 3, .flush 0⟩, ⟨"c", 3, .flush 2⟩] ∧ d.pending = ["a"] ∧
      (d.steps [.advance 5]).runs.map Run.time = [3, 3, 8] := by
  decide +kernel

end Debouncer
end SymbolAtlas
