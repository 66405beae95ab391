import SymbolAtlas.Proofs.PassiveCallbacks

/-!
# Debounced runs are the quiet schedules

When callbacks leave the debouncer alone, what happens to one key is a small machine
(`Debouncer.Watch`): the clock, the call that is due, and the runs of the key
(`Debouncer.watch_step`).  So the loop runs a key exactly if it was scheduled one delay ago and
nothing has come between (`Debouncer.Quiet`), and what is done to other keys makes no difference to
it (`Debouncer.timesOf_filter`).
-/

namespace SymbolAtlas

/-- Whether it was the loop that led to a run. -/
def Trigger.isTimer : Trigger → Bool
  | .timer _ => true
  | .flush _ | .atOnce => false

namespace Action

/-- How far an action moves the clock. -/
def time : Action → Int
  | .advance ms => ms
  | _ => 0

/-- Whether an action starts the wait of some key. -/
def isSchedule : Action → Bool
  | .schedule _ => true
  | _ => false

/-- Whether an action has to do with a key at all. -/
def concerns (k : String) : Action → Bool
  | .schedule key | .cancel key | .isPending key | .flush (some key) => key = k
  | .flush none | .dispose | .advance _ | .fail => true

/-- Whether a key that waits does not wait any more, or waits afresh. -/
def Settles (a : Action) (k : String) : Prop :=
  a = .schedule k ∨ a = .cancel k ∨ a = .flush none ∨ a = .flush (some k) ∨ a = .dispose

end Action

namespace Debouncer

variable {k : String} {delay t target : Int} {handle : Nat} {w : Watch} {d : Debouncer}
  {a : Action}

section Plain

variable {d : Debouncer}

/-! ### One key -/

/-- What there is to be seen of one key: the time, the number of calls that were asked for, the
moment its call is due with the handle of the call, and its runs. -/
structure Watch where
  now : Int
  asked : Nat
  due : Option (Int × Nat)
  runs : List (Int × Trigger)

/-- The call that a key is waiting for. -/
def due? (d : Debouncer) (k : String) : Option (Int × Nat) :=
  (d.handles.get? k).bind fun handle => d.loop.calls[handle]?.map fun call => (call.due, handle)

/-- When and why a key was run. -/
def runsOf (k : String) (runs : List Run) : List (Int × Trigger) :=
  (runs.filter (·.key = k)).map fun r => (r.time, r.trigger)

theorem runsOf_append (k : String) (runs runs' : List Run) :
    runsOf k (runs ++ runs') = runsOf k runs ++ runsOf k runs' := by
  simp [runsOf]

/-- A run is listed under its key. -/
theorem mem_runsOf {runs : List Run} {trigger : Trigger} :
    (t, trigger) ∈ runsOf k runs ↔ ⟨k, t, trigger⟩ ∈ runs := by
  simp only [runsOf, List.mem_map, List.mem_filter, decide_eq_true_eq, Prod.mk.injEq]
  constructor
  · rintro ⟨r, ⟨hr, rfl⟩, rfl, rfl⟩
    exact hr
  · exact fun hr => ⟨_, ⟨hr, rfl⟩, rfl, rfl⟩

/-- What there is to be seen of a key. -/
def watch (d : Debouncer) (k : String) : Watch :=
  ⟨d.loop.now, d.loop.nextHandle, d.due? k, runsOf k d.runs⟩

/-- A key is due when the call that waits for it is. -/
theorem due?_eq_some_iff (hd : d.Tied) :
    d.due? k = some (t, handle) ↔
      ∃ call, d.loop.Waits handle call ∧ call.key = k ∧ call.due = t := by
  simp only [due?, Option.bind_eq_some_iff, Option.map_eq_some_iff, Prod.mk.injEq]
  constructor
  · rintro ⟨_, hget, call, hcall, rfl, rfl⟩
    obtain ⟨call', hw, hkey⟩ := (hd k _).mp hget
    obtain rfl := Option.some.inj (hcall.symm.trans hw.1)
    exact ⟨call, hw, hkey, rfl⟩
  · rintro ⟨call, hw, hkey, hdue⟩
    exact ⟨handle, (hd k handle).mpr ⟨call, hw, hkey⟩, call, hw.1, hdue, rfl⟩

section Deeds

variable {deed : Deed} {k : String}

/-- A deed leaves a key waiting unless it frees it. -/
theorem due?_doing_of_not_frees (hd : d.Tied) (hdeed : d.Possible deed) (h : ¬ deed.Frees k) :
    (d.doing deed).due? k = d.due? k := by
  refine Option.ext fun x => ?_
  rw [due?_eq_some_iff (hd.doing hdeed), due?_eq_some_iff hd]
  refine exists_congr fun call => and_congr_left fun hcall => ?_
  rw [hd.waits_doing hdeed, hcall.1]
  refine ⟨?_, fun hw => Or.inl ⟨h, hw⟩⟩
  rintro (hw | ⟨rfl, -⟩)
  · exact hw.2
  · exact absurd rfl h

/-- A key that is freed waits no more. -/
theorem due?_doing_of_frees (hd : d.Tied) (hdeed : d.Possible deed) (h : deed.Frees k)
    (hwait : deed ≠ .wait k) : (d.doing deed).due? k = none := by
  refine Option.eq_none_iff_forall_ne_some.mpr fun x hx => ?_
  obtain ⟨call, hw, rfl, -⟩ := (due?_eq_some_iff (hd.doing hdeed)).mp hx
  rcases (hd.waits_doing hdeed).mp hw with hkept | hnew
  · exact hkept.1 h
  · exact hwait hnew.1

/-- A key that starts to wait is due one delay from now. -/
theorem due?_wait (hd : d.Tied) (h : d.clocked = true) (k : String) :
    (d.doing (.wait k)).due? k = some (d.loop.now + d.delay, d.loop.nextHandle) := by
  have hdeed : d.Possible (.wait k) := h
  refine (due?_eq_some_iff (hd.doing hdeed)).mpr ⟨⟨k, _, .waiting⟩, ?_, rfl, rfl⟩
  exact (hd.waits_doing hdeed).mpr (Or.inr ⟨rfl, rfl, rfl⟩)

/-- A key is run only if its handle is freed. -/
theorem frees_of_run {r : Run} (h : deed.run? d = some r) : deed.Frees r.key := by
  cases deed <;> cases h <;> rfl

/-- A deed that does not free a key does not run it. -/
theorem runsOf_doing_of_not_frees (h : ¬ deed.Frees k) :
    runsOf k (d.doing deed).runs = runsOf k d.runs := by
  have hnone : runsOf k (deed.run? d).toList = [] := by
    cases hr : deed.run? d with
    | none => rfl
    | some r =>
      have hne : r.key ≠ k := fun hkey => h (hkey ▸ frees_of_run hr)
      simp [runsOf, hne]
  rw [runs_doing, runsOf_append, hnone, List.append_nil]

end Deeds

namespace Watch

/-- A key is flushed: it is run if it is waiting. -/
def flushed (w : Watch) : Watch :=
  { w with
    due := none
    runs := w.runs ++ (w.due.map fun x => (w.now, .flush x.2)).toList }

/-- The clock moves on: the key is run if its call is due by then. -/
def advanced (w : Watch) (target : Int) : Watch :=
  { w with
    now := target
    due := w.due.filter (target < ·.1)
    runs := w.runs ++ ((w.due.filter (·.1 ≤ target)).map fun x => (x.1, .timer x.2)).toList }

/-- Before a key is due the clock just moves. -/
theorem advanced_of_late (h : ∀ x, w.due = some x → target < x.1) :
    w.advanced target = { w with now := target } := by
  rcases w with ⟨now, asked, due, runs⟩
  cases due with
  | none => simp [advanced]
  | some x =>
    have hlate : target < x.1 := h x rfl
    simp [advanced, Option.filter_some, hlate, Int.not_le.mpr hlate]

/-- When it is due the key is run. -/
theorem advanced_of_due (h : w.due = some (t, handle)) (hle : t ≤ target) :
    w.advanced target = ⟨target, w.asked, none, w.runs ++ [(t, .timer handle)]⟩ := by
  simp [advanced, h, Option.filter_some, hle, Int.not_lt.mpr hle]

/-- What is seen of a key after an action. -/
def after (delay : Int) (k : String) (w : Watch) : Action → Watch
  | .schedule key =>
    { w with
      asked := w.asked + 1
      due := if key = k then some (w.now + delay, w.asked) else w.due }
  | .cancel key => { w with due := if key = k then none else w.due }
  | .flush (some key) => if key = k then w.flushed else w
  | .flush none => w.flushed
  | .dispose => { w with due := none }
  | .advance ms => w.advanced (w.now + ms)
  | .isPending _ | .fail => w

end Watch

theorem watch_doing_of_not_frees {deed : Deed} (hd : d.Tied) (hdeed : d.Possible deed)
    (h : ¬ deed.Frees k) (hwait : ∀ key, deed ≠ .wait key) :
    (d.doing deed).watch k = { d.watch k with now := (d.doing deed).loop.now } := by
  simp only [watch, due?_doing_of_not_frees hd hdeed h, runsOf_doing_of_not_frees h,
    nextHandle_doing_of_ne_wait d hwait]

/-- The turn of a key flushes it. -/
theorem watch_flushKey_self (hd : d.Tied) (k : String) :
    (d.flushKey k).watch k = (d.watch k).flushed := by
  cases hget : d.handles.get? k with
  | none =>
    have hnone : d.due? k = none := by rw [due?, hget, Option.bind_none]
    rw [flushKey_of_none hget]
    simp [Watch.flushed, watch, hnone]
  | some handle =>
    have hdeed : d.Possible (.flush k handle) := hget
    obtain ⟨call, hw, hkey⟩ := (hd k handle).mp hget
    have hdue := (due?_eq_some_iff hd).mpr ⟨call, hw, hkey, rfl⟩
    have hruns := d.runs_doing (.flush k handle)
    have hafter : (d.doing (.flush k handle)).due? k = none :=
      due?_doing_of_frees hd hdeed rfl (by simp)
    have hnow : (d.doing (.flush k handle)).loop.now = d.loop.now :=
      d.now_doing (by simp) (by simp)
    have hasked : (d.doing (.flush k handle)).loop.nextHandle = d.loop.nextHandle :=
      d.nextHandle_doing_of_ne_wait (by simp)
    rw [flushKey_of_get? hget]
    simp only [watch, Watch.flushed, hafter, hruns, runsOf_append, hdue, hnow, hasked]
    simp [runsOf, Deed.run?]

/-- The turn of another key leaves it alone. -/
theorem watch_flushKey_of_ne (hd : d.Tied) {key : String} (h : k ≠ key) :
    (d.flushKey key).watch k = d.watch k := by
  cases hget : d.handles.get? key with
  | none => rw [flushKey_of_none hget]
  | some handle =>
    have hdeed : d.Possible (.flush key handle) := hget
    rw [flushKey_of_get? hget, watch_doing_of_not_frees hd hdeed h (by simp),
      now_doing d (by simp) (by simp)]
    rfl

/-- A flush of keys flushes each of them. -/
theorem watch_foldl_flushKey (hd : d.Tied) {keys : List String} (hkeys : keys.Nodup) :
    (keys.foldl flushKey d).watch k = if k ∈ keys then (d.watch k).flushed else d.watch k := by
  induction keys generalizing d with
  | nil => rfl
  | cons key keys ih =>
    obtain ⟨hout, hnodup⟩ := List.nodup_cons.mp hkeys
    have htied : (d.flushKey key).Tied :=
      flushKey_preserves (fun _ _ _ h hget => h.doing hget) hd key
    rw [List.foldl_cons, ih htied hnodup]
    by_cases hk : k = key
    · subst hk
      rw [if_neg hout, if_pos List.mem_cons_self, watch_flushKey_self hd]
    · simp only [watch_flushKey_of_ne hd hk, List.mem_cons, hk, false_or]

/-- On one way of the clock a key is run if it is due. -/
theorem watch_fires {d' : Debouncer} (h : Fires target d d') (hd : d.Tied) (k : String) :
    d'.watch k = (d.watch k).advanced target := by
  induction h with
  | @done d hnone =>
    have hlate : ∀ x, d.due? k = some x → target < x.1 := by
      rintro ⟨t, handle⟩ hx
      obtain ⟨call, hw, -, rfl⟩ := (due?_eq_some_iff hd).mp hx
      exact (d.loop.next?_spec target).2 hnone handle call hw
    have hdeed : d.Possible (.setClock target) := trivial
    rw [Watch.advanced_of_late hlate, watch_doing_of_not_frees hd hdeed id (by simp)]
    rfl
  | @fire d d' call handle hnext rest ih =>
    obtain ⟨hw, hle, -⟩ := (d.loop.next?_spec target).1 call handle hnext
    have hdeed : d.Possible (.fire call handle) := ⟨target, hnext⟩
    rw [ih (hd.doing hdeed)]
    by_cases hk : k = call.key
    · subst hk
      have hdue : (d.watch call.key).due = some (call.due, handle) :=
        (due?_eq_some_iff hd).mpr ⟨call, hw, rfl, rfl⟩
      have hafter : ((d.doing (.fire call handle)).watch call.key).due = none :=
        due?_doing_of_frees hd hdeed rfl (by simp)
      have hruns := d.runs_doing (.fire call handle)
      have hasked : (d.doing (.fire call handle)).loop.nextHandle = d.loop.nextHandle :=
        d.nextHandle_doing_of_ne_wait (by simp)
      rw [Watch.advanced_of_due hdue hle, Watch.advanced_of_late (by simp [hafter])]
      simp only [watch] at hafter ⊢
      simp [hafter, hasked, hruns, Deed.run?, runsOf]
    · rw [watch_doing_of_not_frees hd hdeed hk (by simp)]
      rfl

/-- A deed that runs nothing and leaves the clock alone is seen by what it does to the call. -/
theorem watch_doing_of_no_run {deed : Deed} (hrun : deed.run? d = none)
    (hclock : ∀ now, deed ≠ .setClock now) (k : String) :
    (d.doing deed).watch k =
      { d.watch k with asked := (d.doing deed).loop.nextHandle, due := (d.doing deed).due? k } := by
  have hfire : ∀ call handle, deed ≠ .fire call handle := by
    rintro call handle rfl
    cases hrun
  simp [watch, runs_doing, hrun, d.now_doing hclock hfire]

/-- **The machine of one key goes along with the debouncer.** -/
theorem watch_step (hd : d.Plain) (k : String) (a : Action) :
    (d.step a).1.watch k = (d.watch k).after d.delay k a := by
  have htied := hd.sound.tied
  cases a with
  | schedule key =>
    have hdeed : d.Possible (.wait key) := hd.clocked
    rw [step_eq_doing (by simp [undertake, hd.clocked]), deedOfAction, if_pos hd.clocked,
      watch_doing_of_no_run rfl (by simp), nextHandle_wait, Watch.after]
    by_cases hk : key = k
    · subst hk
      rw [due?_wait htied hd.clocked, if_pos rfl]
      rfl
    · rw [due?_doing_of_not_frees htied hdeed (Ne.symm hk), if_neg hk]
      rfl
  | cancel key =>
    have hdeed : d.Possible (.cancel key) := trivial
    rw [step_eq_doing rfl, deedOfAction, watch_doing_of_no_run rfl (by simp),
      nextHandle_doing_of_ne_wait _ (by simp), Watch.after]
    by_cases hk : key = k
    · subst hk
      rw [due?_doing_of_frees htied hdeed rfl (by simp), if_pos rfl]
      rfl
    · rw [due?_doing_of_not_frees htied hdeed (Ne.symm hk), if_neg hk]
      rfl
  | isPending key =>
    rw [step_eq_doing rfl]
    rfl
  | flush key =>
    rw [step_flush hd.passive]
    cases key with
    | none =>
      rw [Option.elim_none, watch_foldl_flushKey htied hd.sound.nodup, Watch.after]
      split_ifs with hk
      · rfl
      · -- a key that is not waiting is not run
        have hnone : d.due? k = none := by
          rw [due?, Entries.get?_eq_none_iff.mpr hk, Option.bind_none]
        simp [Watch.flushed, watch, hnone]
    | some key =>
      rw [Option.elim_some, watch_foldl_flushKey htied (List.nodup_singleton key), Watch.after]
      simp only [List.mem_singleton, eq_comm]
  | dispose =>
    have hdeed : d.Possible .dispose := trivial
    rw [step_eq_doing rfl, deedOfAction, watch_doing_of_no_run rfl (by simp),
      nextHandle_doing_of_ne_wait _ (by simp), due?_doing_of_frees htied hdeed trivial (by simp)]
    rfl
  | advance ms => exact watch_fires (fires_step hd.passive ms) htied k
  | fail =>
    rw [step_eq_doing rfl]
    rfl

/-- So the machine goes along with all actions. -/
theorem watch_steps (hd : d.Plain) (k : String) (actions : List Action) :
    (d.steps actions).watch k = actions.foldl (Watch.after d.delay k) (d.watch k) := by
  induction actions generalizing d with
  | nil => rfl
  | cons a actions ih =>
    have hnext := ih (hd.step a)
    rw [delay_step, watch_step hd] at hnext
    exact hnext

end Plain

/-! ### The time and the number of schedules -/

/-- How far some actions move the clock in all. -/
def elapsed (actions : List Action) : Int := (actions.map Action.time).foldr (· + ·) 0

/-- How often some key is scheduled by some actions. -/
def scheduled (actions : List Action) : Nat := actions.countP Action.isSchedule

@[simp] theorem elapsed_cons (a : Action) (actions : List Action) :
    elapsed (a :: actions) = a.time + elapsed actions := rfl

@[simp] theorem elapsed_nil : elapsed [] = 0 := rfl

@[simp] theorem elapsed_append (actions actions' : List Action) :
    elapsed (actions ++ actions') = elapsed actions + elapsed actions' := by
  induction actions with
  | nil => simp
  | cons a actions ih => rw [List.cons_append, elapsed_cons, elapsed_cons, ih, Int.add_assoc]

/-- The time is what actions add up to. -/
theorem Watch.now_after (delay : Int) (k : String) (w : Watch) (a : Action) :
    (w.after delay k a).now = w.now + a.time := by
  cases a with
  | advance ms => rfl
  | flush key =>
    cases key with
    | none => simp [after, flushed, Action.time]
    | some key =>
      simp only [after]
      split_ifs <;> simp [flushed, Action.time]
  | _ => simp [after, Action.time]

/-- Each schedule asks for one call. -/
theorem Watch.asked_after (delay : Int) (k : String) (w : Watch) (a : Action) :
    (w.after delay k a).asked = w.asked + scheduled [a] := by
  cases a with
  | flush key =>
    cases key with
    | none => rfl
    | some key =>
      simp only [after]
      split_ifs <;> rfl
  | _ => rfl

/-- The clock shows the time that has passed. -/
theorem now_steps (hd : d.Plain) (actions : List Action) :
    (d.steps actions).loop.now = d.loop.now + elapsed actions := by
  induction actions using List.reverseRecOn with
  | nil => simp [steps]
  | append_singleton actions a ih =>
    have hnow := congrArg Watch.now (watch_step (hd.steps actions) "" a)
    rw [Watch.now_after] at hnow
    rw [steps_concat, elapsed_append, elapsed_cons, elapsed_nil, Int.add_zero, ← Int.add_assoc,
      ← ih]
    exact hnow

/-- Handles count the schedules. -/
theorem nextHandle_steps (hd : d.Plain) (actions : List Action) :
    (d.steps actions).loop.nextHandle = d.loop.nextHandle + scheduled actions := by
  induction actions using List.reverseRecOn with
  | nil => simp [steps, scheduled]
  | append_singleton actions a ih =>
    have hasked := congrArg Watch.asked (watch_step (hd.steps actions) "" a)
    rw [Watch.asked_after] at hasked
    rw [steps_concat, scheduled, List.countP_append, ← Nat.add_assoc]
    exact hasked.trans (congrArg (· + scheduled [a]) ih)

/-! ### Quiet schedules -/

/-- A key was scheduled one delay before `t`, with `handle` schedules before it, and since then it
was neither scheduled again, cancelled, flushed nor disposed of, and the clock has not come to
`t`. -/
def Quiet (delay : Int) (past : List Action) (k : String) (t : Int) (handle : Nat) : Prop :=
  ∃ before between, past = before ++ .schedule k :: between ∧ elapsed before + delay = t ∧
    scheduled before = handle ∧ (∀ a ∈ between, ¬ a.Settles k) ∧
    ∀ ahead ms rest, between = ahead ++ .advance ms :: rest →
      elapsed before + elapsed ahead + ms < t

/-- Where in a list with a last element another one stands: at the end, or ahead of it. -/
theorem concat_eq_append_cons {α : Type} {xs ys zs : List α} {a b : α}
    (h : xs ++ [a] = ys ++ b :: zs) :
    zs = [] ∧ xs = ys ∧ a = b ∨ ∃ zs', zs = zs' ++ [a] ∧ xs = ys ++ b :: zs' := by
  rcases List.eq_nil_or_concat' zs with rfl | ⟨zs, c, rfl⟩
  · obtain ⟨hxs, ha⟩ := List.append_inj' h rfl
    exact Or.inl ⟨rfl, hxs, List.singleton_inj.mp ha⟩
  · rw [← List.cons_append, ← List.append_assoc] at h
    obtain ⟨hxs, ha⟩ := List.append_inj' h rfl
    exact Or.inr ⟨zs, by rw [List.singleton_inj.mp ha], hxs⟩

/-- A quiet schedule was made just now, or stays quiet. -/
theorem quiet_concat {past : List Action} :
    Quiet delay (past ++ [a]) k t handle ↔
      a = .schedule k ∧ elapsed past + delay = t ∧ scheduled past = handle ∨
        Quiet delay past k t handle ∧ ¬ a.Settles k ∧
          ∀ ms, a = .advance ms → elapsed past + ms < t := by
  constructor
  · rintro ⟨before, between, hpast, ht, hhandle, hcalm, hclock⟩
    rcases concat_eq_append_cons hpast with ⟨rfl, rfl, ha⟩ | ⟨between, rfl, rfl⟩
    · exact Or.inl ⟨ha, ht, hhandle⟩
    · refine Or.inr ⟨⟨before, between, rfl, ht, hhandle, fun b hb => hcalm b (by simp [hb]), ?_⟩,
        hcalm a (by simp), ?_⟩
      · rintro ahead ms rest rfl
        exact hclock ahead ms (rest ++ [a]) (by simp)
      · rintro ms rfl
        simpa [Action.time, Int.add_assoc] using hclock between ms [] rfl
  · rintro (⟨rfl, ht, hhandle⟩ | ⟨⟨before, between, rfl, ht, hhandle, hcalm, hclock⟩, ha, hms⟩)
    · exact ⟨past, [], rfl, ht, hhandle, by simp, by simp⟩
    · refine ⟨before, between ++ [a], by simp, ht, hhandle, ?_, ?_⟩
      · intro b hb
        rcases List.mem_append.mp hb with hb | hb
        · exact hcalm b hb
        · rwa [List.mem_singleton.mp hb]
      · intro ahead ms rest hsplit
        rcases concat_eq_append_cons hsplit with ⟨rfl, rfl, rfl⟩ | ⟨rest, rfl, rfl⟩
        · simpa [Action.time, Int.add_assoc] using hms ms rfl
        · exact hclock ahead ms rest rfl

/-- A key is due because it was scheduled just now, or was due before. -/
theorem Watch.due_after :
    (w.after delay k a).due = some (t, handle) ↔
      a = .schedule k ∧ w.now + delay = t ∧ w.asked = handle ∨
        w.due = some (t, handle) ∧ ¬ a.Settles k ∧ ∀ ms, a = .advance ms → w.now + ms < t := by
  cases a with
  | schedule key =>
    by_cases hk : key = k
    · simp [after, Action.Settles, hk]
    · simp [after, Action.Settles, hk]
  | cancel key =>
    by_cases hk : key = k
    · simp [after, Action.Settles, hk]
    · simp [after, Action.Settles, hk]
  | isPending key => simp [after, Action.Settles]
  | flush key =>
    cases key with
    | none => simp [after, flushed, Action.Settles]
    | some key =>
      by_cases hk : key = k
      · simp [after, flushed, Action.Settles, hk]
      · simp [after, Action.Settles, hk]
  | dispose => simp [after, Action.Settles]
  | advance ms => simp [after, advanced, Action.Settles, Option.filter_eq_some_iff]
  | fail => simp [after, Action.Settles]

/-- **A key waits for its call as long as it is quiet.** -/
theorem due?_steps_iff {reactions : Entries String (List (List Action))} (h : Passive reactions)
    {past : List Action} :
    ((new delay true reactions).steps past).due? k = some (t, handle) ↔
      Quiet (max delay 0) past k t handle := by
  have hplain := plain_new delay h
  induction past using List.reverseRecOn with
  | nil => simp [steps, new, due?, Quiet]
  | append_singleton past a ih =>
    have hnow := now_steps hplain past
    have hasked := nextHandle_steps hplain past
    have hwatch := congrArg Watch.due (watch_step (hplain.steps past) k a)
    rw [delay_steps] at hwatch
    rw [steps_concat, quiet_concat, ih.symm]
    refine (Eq.congr_left hwatch).trans (Watch.due_after.trans ?_)
    simp only [watch, hnow, hasked]
    simp [new, Loop.start, Loop.nextHandle]

/-! ### The runs that an action makes -/

/-- The loop runs a key when the clock gets to the moment at which it is due. -/
theorem Watch.runs_after (delay : Int) (k : String) (w : Watch) (a : Action) :
    ∃ made, (w.after delay k a).runs = w.runs ++ made ∧
      ∀ t handle, (t, .timer handle) ∈ made ↔
        ∃ ms, a = .advance ms ∧ t ≤ w.now + ms ∧ w.due = some (t, handle) := by
  cases a with
  | advance ms =>
    refine ⟨_, rfl, fun t handle => ?_⟩
    simp [Option.filter_eq_some_iff, and_comm]
  | flush key =>
    by_cases hk : key = none ∨ key = some k
    · refine ⟨(w.due.map fun x => (w.now, Trigger.flush x.2)).toList, ?_, by simp⟩
      rcases hk with rfl | rfl <;> simp [after, flushed]
    · refine ⟨[], ?_, by simp⟩
      cases key with
      | none => exact absurd (Or.inl rfl) hk
      | some key =>
        have hne : key ≠ k := fun h => hk (Or.inr (congrArg some h))
        simp [after, hne]
  | _ => exact ⟨[], by simp [after], by simp⟩

/-- **The loop runs a key when the clock comes to the moment its call is due.** -/
theorem timer_mem_made_iff (hd : d.Plain) {made : List Run}
    (hmade : (d.step a).1.runs = d.runs ++ made) (k : String) (t : Int) (handle : Nat) :
    ⟨k, t, .timer handle⟩ ∈ made ↔
      ∃ ms, a = .advance ms ∧ t ≤ d.loop.now + ms ∧ d.due? k = some (t, handle) := by
  obtain ⟨mine, hmine, hiff⟩ := Watch.runs_after d.delay k (d.watch k) a
  have hruns : runsOf k (d.step a).1.runs = runsOf k d.runs ++ mine := by
    rw [← watch_step hd] at hmine
    exact hmine
  rw [hmade, runsOf_append, List.append_cancel_left_eq] at hruns
  rw [← mem_runsOf, hruns, hiff]
  rfl

/-! ### The other keys -/

/-- When a key was run, and whether by the loop. -/
def timesOf (k : String) (runs : List Run) : List (Int × Bool) :=
  (runsOf k runs).map fun x => (x.1, x.2.isTimer)

/-- What is seen of a key, without the handles. -/
def Watch.bare (w : Watch) : Int × Option Int × List (Int × Bool) :=
  (w.now, w.due.map Prod.fst, w.runs.map fun x => (x.1, x.2.isTimer))

theorem Watch.bare_flushed (w : Watch) :
    w.flushed.bare =
      (w.now, none, w.bare.2.2 ++ (w.bare.2.1.map fun _ => (w.now, false)).toList) := by
  rcases w with ⟨now, asked, due, runs⟩
  cases due <;> simp [flushed, bare, Trigger.isTimer]

theorem Watch.bare_advanced (w : Watch) (target : Int) :
    (w.advanced target).bare =
      (target, w.bare.2.1.filter (target < ·),
        w.bare.2.2 ++ ((w.bare.2.1.filter (· ≤ target)).map fun t => (t, true)).toList) := by
  rcases w with ⟨now, asked, due, runs⟩
  cases due with
  | none => simp [advanced, bare]
  | some x =>
    rcases Int.lt_or_le target x.1 with hlt | hle
    · simp [advanced, bare, Option.filter_some, hlt, Int.not_le.mpr hlt]
    · simp [advanced, bare, Option.filter_some, hle, Int.not_lt.mpr hle, Trigger.isTimer]

/-- What happens to a key does not depend on the handles. -/
theorem Watch.bare_after_congr {w' : Watch} (h : w.bare = w'.bare) (delay : Int) (k : String)
    (a : Action) : (w.after delay k a).bare = (w'.after delay k a).bare := by
  have hnow : w.now = w'.now := congrArg Prod.fst h
  have hdue : w.due.map Prod.fst = w'.due.map Prod.fst := congrArg (·.2.1) h
  have hruns := congrArg (·.2.2) h
  simp only [bare] at hruns
  have hflushed : w.flushed.bare = w'.flushed.bare := by rw [bare_flushed, bare_flushed, h, hnow]
  cases a with
  | schedule key =>
    simp only [after, bare, hnow, hruns]
    split_ifs <;> simp [hdue]
  | cancel key =>
    simp only [after, bare, hnow, hruns]
    split_ifs <;> simp [hdue]
  | isPending key => exact h
  | flush key =>
    cases key with
    | none => exact hflushed
    | some key =>
      simp only [after]
      split_ifs
      · exact hflushed
      · exact h
  | dispose => simp [after, bare, hnow, hruns]
  | advance ms => rw [after, after, bare_advanced, bare_advanced, h, hnow]
  | fail => exact h

/-- What does not concern a key makes no difference to it. -/
theorem Watch.bare_after_of_not_concerns (h : a.concerns k = false) (delay : Int) (w : Watch) :
    (w.after delay k a).bare = w.bare := by
  cases a with
  | flush key =>
    cases key with
    | none => cases h
    | some key => simp_all [after, Action.concerns]
  | dispose => cases h
  | advance ms => cases h
  | fail => cases h
  | _ => simp_all [after, bare, Action.concerns]

/-- **What is done to other keys makes no difference.** -/
theorem timesOf_filter (hd : d.Plain) (k : String) (actions : List Action) :
    timesOf k (d.steps (actions.filter (·.concerns k))).runs =
      timesOf k (d.steps actions).runs := by
  have hbare : ∀ (actions : List Action) (w w' : Watch), w.bare = w'.bare →
      ((actions.filter (·.concerns k)).foldl (Watch.after d.delay k) w).bare =
        (actions.foldl (Watch.after d.delay k) w').bare := by
    intro actions
    induction actions with
    | nil => exact fun w w' h => h
    | cons a actions ih =>
      intro w w' h
      cases hconcerns : a.concerns k with
      | false =>
        rw [List.filter_cons_of_neg (by simp [hconcerns]), List.foldl_cons]
        exact ih w _ (h.trans (Watch.bare_after_of_not_concerns hconcerns _ w').symm)
      | true =>
        rw [List.filter_cons_of_pos hconcerns, List.foldl_cons, List.foldl_cons]
        exact ih _ _ (Watch.bare_after_congr h _ k a)
  have hsame := congrArg (·.2.2) (hbare actions (d.watch k) (d.watch k) rfl)
  rw [← watch_steps hd, ← watch_steps hd] at hsame
  exact hsame

/-- **Debounced runs are the quiet schedules.**  With callbacks that leave the debouncer alone, and
whatever was asked of it before, an action makes the loop run a key for the moment `t` if and only
if the clock comes to `t` by it and the key was scheduled one delay before and has been quiet since.
The loop runs keys in the order in which they are due and, if due at the same moment, in which they
were scheduled: on each way of the clock, and in all as long as the clock is not turned back.  And
the times at which a key is run are the same without all that is done to other keys. -/
theorem timer_runs_iff_quiet (delay : Int) {reactions : Entries String (List (List Action))}
    (h : Passive reactions) :
    let d := new delay true reactions
    (∀ past a, (d.steps past).loop.now = elapsed past ∧
      ∃ made, (d.steps (past ++ [a])).runs = (d.steps past).runs ++ made ∧
        (∀ k t handle, ⟨k, t, .timer handle⟩ ∈ made ↔
          (∃ ms, a = .advance ms ∧ t ≤ elapsed past + ms) ∧
            Quiet (max delay 0) past k t handle) ∧
        (timerRuns made).Pairwise Sooner) ∧
      (∀ actions, (∀ ms, .advance ms ∈ actions → 0 ≤ ms) →
        (timerRuns (d.steps actions).runs).Pairwise Sooner) ∧
      ∀ actions k, timesOf k (d.steps (actions.filter (·.concerns k))).runs =
        timesOf k (d.steps actions).runs := by
  intro d
  have hplain : d.Plain := plain_new delay h
  refine ⟨fun past a => ?_, fun actions hforward => (inOrder_steps h hforward).sorted,
    fun actions k => timesOf_filter hplain k actions⟩
  have hnow : (d.steps past).loop.now = elapsed past :=
    (now_steps hplain past).trans (Int.zero_add _)
  have hpast := hplain.steps past
  obtain ⟨made, hmade⟩ := runs_step (d.steps past) a
  have hiff := timer_mem_made_iff hpast hmade
  refine ⟨hnow, made, by rw [steps_concat, hmade], fun k t handle => ?_, ?_⟩
  · rw [hiff, hnow, due?_steps_iff h]
    exact ⟨fun ⟨ms, ha, hle, hquiet⟩ => ⟨⟨ms, ha, hle⟩, hquiet⟩,
      fun ⟨⟨ms, ha, hle⟩, hquiet⟩ => ⟨ms, ha, hle, hquiet⟩⟩
  · by_cases ha : ∃ ms, a = .advance ms
    · obtain ⟨ms, rfl⟩ := ha
      obtain ⟨made', hmade', hsorted, -⟩ :=
        (fires_step hpast.passive ms).sorted hpast.sound.tied
      rw [hmade, List.append_cancel_left_eq] at hmade'
      rwa [hmade']
    · -- only the clock makes the loop run anything
      have hnone : timerRuns made = [] := by
        refine List.eq_nil_iff_forall_not_mem.mpr fun x hx => ?_
        obtain ⟨k, hk⟩ := mem_timerRuns.mp hx
        obtain ⟨ms, hms, -⟩ := (hiff k x.1 x.2).mp hk
        exact ha ⟨ms, hms⟩
      rw [hnone]
      exact List.Pairwise.nil

/-- A key that is scheduled again before it is due is run by its second call, also if another key
is run in between and its callback fails. -/
theorem timer_runs_iff_quiet_scheduled_again :
    let reactions : Entries String (List (List Action)) := ({} : Entries _ _).put "b" [[.fail]]
    let d := new 5 true reactions
    let past := [.schedule "a", .schedule "b", .advance 3, .schedule "a"]
    Passive reactions ∧ ⟨"a", 8, .timer 2⟩ ∈ (d.steps (past ++ [.advance 9])).runs ∧
      (timerRuns (d.steps (past ++ [.advance 9])).runs).Pairwise Sooner ∧
      timesOf "a" (d.steps [.schedule "a", .advance 3, .schedule "a"]).runs =
        timesOf "a" (d.steps past).runs := by
  intro reactions d past
  have hpassive : Passive reactions := by
    intro key queue hget
    rw [Entries.get?_put] at hget
    split_ifs at hget
    · cases hget
      simp
    · cases hget
  obtain ⟨hruns, hsorted, hothers⟩ := timer_runs_iff_quiet 5 hpassive
  refine ⟨hpassive, ?_, hsorted _ (by simp [past]), hothers past "a"⟩
  obtain ⟨-, made, hmade, hiff, -⟩ := hruns past (.advance 9)
  rw [hmade]
  refine List.mem_append_right _ ((hiff "a" 8 2).mpr ⟨⟨9, rfl, by decide⟩, ?_⟩)
  exact ⟨[.schedule "a", .schedule "b", .advance 3], [], rfl, by decide, by decide, by simp,
    by simp⟩

/-- Calls that are due at the same moment are made in the order of the schedules, each once. -/
example :
    let actions := [.schedule "b", .schedule "c", .schedule "a", .schedule "b", .advance 5,
      .advance 5]
    ((new 5 true {}).steps actions).runs =
      [⟨"c", 5, .timer 1⟩, ⟨"a", 5, .timer 2⟩, ⟨"b", 5, .timer 3⟩] := by
  decide +kernel

end Debouncer
end SymbolAtlas
