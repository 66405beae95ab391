import SymbolAtlas.Proofs.LiveTimers

/-!
# Callbacks that leave the debouncer alone

When callbacks do nothing to the debouncer that runs them (`Debouncer.Passive`), an action does a
few deeds and nothing else: a flush has one turn for each key (`Debouncer.step_flush`), and on its
way the clock makes the loop run one key after the other (`Debouncer.Fires`).  The loop runs what is
due first, and of several keys what was scheduled first, on each way of the clock
(`Debouncer.Fires.sorted`) and, unless the clock is turned back, in all
(`Debouncer.inOrder_steps`).
-/

namespace SymbolAtlas

/-- The moment and the handle of a run by the loop. -/
def Run.timer? (r : Run) : Option (Int × Nat) :=
  match r.trigger with
  | .timer handle => some (r.time, handle)
  | .flush _ | .atOnce => none

theorem Run.timer?_eq_some {r : Run} {t : Int} {handle : Nat} :
    r.timer? = some (t, handle) ↔ r = ⟨r.key, t, .timer handle⟩ := by
  rcases r with ⟨key, time, trigger⟩
  cases trigger <;> simp [timer?]

/-- The runs by the loop among some runs. -/
def timerRuns (runs : List Run) : List (Int × Nat) := runs.filterMap Run.timer?

/-- The runs by the loop are those with a timer behind them. -/
theorem mem_timerRuns {runs : List Run} {t : Int} {handle : Nat} :
    (t, handle) ∈ timerRuns runs ↔ ∃ key, ⟨key, t, .timer handle⟩ ∈ runs := by
  rw [timerRuns, List.mem_filterMap]
  constructor
  · rintro ⟨r, hr, htimer⟩
    rw [Run.timer?_eq_some] at htimer
    exact ⟨r.key, htimer ▸ hr⟩
  · rintro ⟨key, hr⟩
    exact ⟨_, hr, rfl⟩

theorem timerRuns_append (runs runs' : List Run) :
    timerRuns (runs ++ runs') = timerRuns runs ++ timerRuns runs' :=
  List.filterMap_append

namespace Debouncer

/-! ### Callbacks that leave the debouncer alone -/

/-- The callbacks do nothing to the debouncer; all they may do is fail. -/
def Passive (reactions : Entries String (List (List Action))) : Prop :=
  ∀ key queue, reactions.get? key = some queue → ∀ reaction ∈ queue, ∀ a ∈ reaction, a = Action.fail

@[simp] theorem reactions_cancel (d : Debouncer) (key : String) :
    (d.cancel key).1.reactions = d.reactions := by
  rw [cancel_eq]

section Passive

variable {d : Debouncer}

/-- A passive callback can only fail, and the later ones stay passive. -/
theorem Passive.run (h : Passive d.reactions) (key : String) (trigger : Trigger) :
    Passive (d.run key trigger).1.reactions ∧ ∀ a ∈ (d.run key trigger).2, a = Action.fail := by
  by_cases hnext : ∃ reaction later, d.reactions.get? key = some (reaction :: later)
  · obtain ⟨reaction, later, hget⟩ := hnext
    rw [run_of_reaction hget]
    refine ⟨fun k queue hk r hr => ?_, h key _ hget reaction List.mem_cons_self⟩
    rw [Entries.get?_put] at hk
    split_ifs at hk with hkey
    · cases hk
      exact h key _ hget r (List.mem_cons_of_mem _ hr)
    · exact h k queue hk r hr
  · rw [run_of_no_reaction fun reaction later hget => hnext ⟨reaction, later, hget⟩]
    exact ⟨h, by simp⟩

/-- The same if the loop makes the call. -/
theorem Passive.fire (h : Passive d.reactions) (call : LaterCall) (handle : Nat) :
    Passive (d.fire call handle).1.reactions ∧ ∀ a ∈ (d.fire call handle).2, a = Action.fail :=
  Passive.run (d := { d with
    loop := (d.loop.mark handle .made).setClock call.due
    handles := d.handles.erase call.key }) h call.key (.timer handle)

/-- No deed makes callbacks active. -/
theorem Passive.doing (h : Passive d.reactions) (deed : Deed) :
    Passive (d.doing deed).reactions := by
  have hcancel : ∀ key, Passive (d.cancel key).1.reactions := fun key => by
    rwa [reactions_cancel]
  cases deed with
  | nothing => exact h
  | setClock now => exact h
  | wait key => exact hcancel key
  | cancel key => exact hcancel key
  | dispose =>
    rw [Debouncer.doing, dispose_eq, cancelAll_keeps (f := Debouncer.reactions) reactions_cancel]
    exact h
  | flush key handle => exact ((hcancel key).run key _).1
  | fire call handle => exact (h.fire call handle).1
  | runAtOnce key => exact ((hcancel key).run key _).1

/-- A callback that can only fail is over after one tick. -/
theorem Moment.tick_callback {reaction : List Action} (h : ∀ a ∈ reaction, a = Action.fail)
    (d : Debouncer) (below : List Task) : tick ⟨d, .callback reaction :: below⟩ = ⟨d, below⟩ := by
  cases reaction with
  | nil => rfl
  | cons a rest =>
    rw [h a List.mem_cons_self]
    rfl

end Passive

/-- What deeds preserve, an action preserves with all that follows from it. -/
theorem step_preserves {P : Debouncer → Prop}
    (hP : ∀ d deed, P d → d.Possible deed → P (d.doing deed)) {d : Debouncer} (hd : P d)
    (a : Action) : P (d.step a).1 := by
  have hafter : ∀ ticks (m : Moment), P m.debouncer → P (Moment.after ticks m).debouncer := by
    intro ticks
    induction ticks with
    | zero => exact fun m hm => hm
    | succ ticks ih =>
      refine fun m hm => ih m.tick ?_
      rw [Moment.debouncer_tick]
      exact hP _ _ hm m.possible_deed
  refine hafter _ _ ?_
  rw [undertake_fst]
  exact hP _ _ hd (Moment.possible_deed ⟨d, [.callback [a]]⟩)

/-- A sound debouncer with a loop to wait on, whose callbacks leave it alone. -/
structure Plain (d : Debouncer) : Prop where
  sound : d.Sound
  passive : Passive d.reactions
  clocked : d.clocked = true

/-- A new debouncer with a loop is plain. -/
theorem plain_new (delay : Int) {reactions : Entries String (List (List Action))}
    (h : Passive reactions) : (new delay true reactions).Plain :=
  ⟨sound_new delay true reactions, h, rfl⟩

section Plain

variable {d : Debouncer}

/-- It stays so with each deed. -/
theorem Plain.doing {deed : Deed} (hd : d.Plain) (hdeed : d.Possible deed) :
    (d.doing deed).Plain :=
  ⟨hd.sound.doing hdeed, hd.passive.doing deed, (clocked_doing d deed).trans hd.clocked⟩

/-- And with each action. -/
theorem Plain.step (hd : d.Plain) (a : Action) : (d.step a).1.Plain :=
  step_preserves (fun _ _ hd hdeed => hd.doing hdeed) hd a

theorem delay_step (d : Debouncer) (a : Action) : (d.step a).1.delay = d.delay :=
  step_preserves (P := fun d' => d'.delay = d.delay)
    (fun d' deed h _ => (delay_doing d' deed).trans h) rfl a

/-- Runs are added at the end. -/
theorem runs_step (d : Debouncer) (a : Action) : ∃ made, (d.step a).1.runs = d.runs ++ made := by
  refine step_preserves (P := fun d' => ∃ made, d'.runs = d.runs ++ made) ?_ ⟨[], by simp⟩ a
  rintro d' deed ⟨made, hmade⟩ -
  exact ⟨made ++ (deed.run? d').toList, by rw [runs_doing, hmade, List.append_assoc]⟩

theorem steps_concat (d : Debouncer) (actions : List Action) (a : Action) :
    d.steps (actions ++ [a]) = ((d.steps actions).step a).1 := by
  simp [steps]

theorem Plain.steps (hd : d.Plain) (actions : List Action) : (d.steps actions).Plain := by
  induction actions generalizing d with
  | nil => exact hd
  | cons a actions ih => exact ih (hd.step a)

theorem delay_steps (d : Debouncer) (actions : List Action) :
    (d.steps actions).delay = d.delay := by
  induction actions generalizing d with
  | nil => rfl
  | cons a actions ih => exact (ih (d.step a).1).trans (delay_step d a)

/-! ### What an action does -/

/-- The turn of a key in a flush. -/
def flushKey (d : Debouncer) (key : String) : Debouncer :=
  (d.handles.get? key).elim d fun handle => d.doing (.flush key handle)

theorem flushKey_of_get? {key : String} {handle : Nat} (h : d.handles.get? key = some handle) :
    d.flushKey key = d.doing (.flush key handle) := by
  rw [flushKey, h]
  rfl

theorem flushKey_of_none {key : String} (h : d.handles.get? key = none) : d.flushKey key = d := by
  rw [flushKey, h]
  rfl

/-- What flushing a key that waits preserves, the turn of a key preserves. -/
theorem flushKey_preserves {P : Debouncer → Prop}
    (hP : ∀ d key handle, P d → d.handles.get? key = some handle → P (d.doing (.flush key handle)))
    (hd : P d) (key : String) : P (d.flushKey key) := by
  cases hget : d.handles.get? key with
  | none => rwa [flushKey_of_none hget]
  | some handle =>
    rw [flushKey_of_get? hget]
    exact hP d key handle hd hget

/-- A flush has one turn for each key. -/
theorem leads_flushing (h : Passive d.reactions) (keys : List String) (below : List Task) :
    Moment.Leads ⟨d, .flushing keys :: below⟩ ⟨keys.foldl flushKey d, below⟩ := by
  induction keys generalizing d with
  | nil => exact (Moment.Leads.refl _).tick
  | cons key keys ih =>
    refine Moment.Leads.tick ?_
    simp only [Moment.tick, carryOn_flushing, List.foldl_cons]
    cases hget : d.handles.get? key with
    | none =>
      rw [flushKey_of_none hget]
      exact ih h
    | some handle =>
      rw [flushKey_of_get? hget]
      have hover := ((reactions_cancel d key).symm ▸ h : Passive (d.cancel key).1.reactions).run key
        (.flush handle)
      refine Moment.Leads.tick ?_
      simp only [Option.elim_some, List.cons_append, List.nil_append]
      rw [Moment.tick_callback hover.2]
      exact ih (h.doing _)

/-- So a flush comes to the turns of its keys. -/
theorem step_flush (h : Passive d.reactions) (key : Option String) :
    (d.step (.flush key)).1 = (key.elim d.pending fun key => [key]).foldl flushKey d := by
  refine Moment.finish_eq_of_leads ?_
  cases key <;> exact leads_flushing h _ []

/-- The loop makes the calls that are due one by one, until the clock can be set. -/
inductive Fires (target : Int) : Debouncer → Debouncer → Prop
  | done {d : Debouncer} (h : d.loop.next? target = none) :
      Fires target d (d.doing (.setClock target))
  | fire {d d' : Debouncer} {call : LaterCall} {handle : Nat}
      (h : d.loop.next? target = some (call, handle))
      (rest : Fires target (d.doing (.fire call handle)) d') : Fires target d d'

/-- The clock gets to its target. -/
theorem exists_fires (h : Passive d.reactions) (target : Int) (below : List Task) :
    ∃ d', Fires target d d' ∧ Moment.Leads ⟨d, .advancing target :: below⟩ ⟨d', below⟩ := by
  -- there are fewer calls waiting after each one that is made
  induction hcount : d.waitCount using Nat.strongRecOn generalizing d with
  | ind count ih =>
    subst hcount
    cases hnext : d.loop.next? target with
    | none =>
      refine ⟨_, Fires.done hnext, Moment.Leads.tick ?_⟩
      simp only [Moment.tick, carryOn_advancing, hnext]
      exact Moment.Leads.refl _
    | some x =>
      obtain ⟨call, handle⟩ := x
      have hw := ((d.loop.next?_spec target).1 call handle hnext).1
      obtain ⟨d', hfires, hleads⟩ := ih _ (waitCount_fire_lt hw) (h.doing (.fire call handle)) rfl
      refine ⟨d', Fires.fire hnext hfires, Moment.Leads.tick ?_⟩
      simp only [Moment.tick, carryOn_advancing, hnext, Option.elim_some, List.cons_append,
        List.nil_append]
      refine Moment.Leads.tick ?_
      rw [Moment.tick_callback (h.fire call handle).2]
      exact hleads

/-- On its way the loop makes the calls that are due. -/
theorem fires_step (h : Passive d.reactions) (ms : Int) :
    Fires (d.loop.now + ms) d (d.step (.advance ms)).1 := by
  obtain ⟨d', hfires, hleads⟩ := exists_fires h (d.loop.now + ms) []
  have hend : (d.step (.advance ms)).1 = d' := Moment.finish_eq_of_leads hleads
  rwa [hend]

/-- An action after which nothing is under way is one deed. -/
theorem step_eq_doing {a : Action} (h : (d.undertake a).2 = []) :
    (d.step a).1 = d.doing (d.deedOfAction a) := by
  rw [← undertake_fst]
  refine Moment.finish_eq_of_leads ?_
  rw [h]
  exact Moment.Leads.refl _

end Plain

/-- Only the loop and the clock itself move the clock. -/
theorem now_doing (d : Debouncer) {deed : Deed} (hclock : ∀ now, deed ≠ .setClock now)
    (hfire : ∀ call handle, deed ≠ .fire call handle) : (d.doing deed).loop.now = d.loop.now := by
  cases deed with
  | setClock now => exact absurd rfl (hclock now)
  | fire call handle => exact absurd rfl (hfire call handle)
  | dispose => exact cancelAll_keeps (f := fun d => d.loop.now) now_cancel d.pending d
  | _ => simp [doing]

/-! ### The order of the runs -/

section Order

variable {d : Debouncer}

theorem timerRuns_fire (d : Debouncer) (call : LaterCall) (handle : Nat) :
    timerRuns (d.doing (.fire call handle)).runs = timerRuns d.runs ++ [(call.due, handle)] := by
  rw [runs_doing, timerRuns_append]
  rfl

/-- Of the calls that the loop makes on one way of the clock, the sooner one comes first. -/
theorem Fires.sorted {target : Int} {d d' : Debouncer} (h : Fires target d d') (hd : d.Tied) :
    ∃ made, d'.runs = d.runs ++ made ∧ (timerRuns made).Pairwise Sooner ∧
      ∀ x ∈ timerRuns made, ∃ call, d.loop.Waits x.2 call ∧ call.due = x.1 := by
  induction h with
  | @done d hnone => exact ⟨[], by simp [doing], List.Pairwise.nil, by simp [timerRuns]⟩
  | @fire d d' call handle hnext rest ih =>
    have hdeed : d.Possible (.fire call handle) := ⟨target, hnext⟩
    obtain ⟨hw, -, hfirst⟩ := (d.loop.next?_spec target).1 call handle hnext
    obtain ⟨made, hmade, hsorted, hwaited⟩ := ih (hd.doing hdeed)
    refine ⟨⟨call.key, call.due, .timer handle⟩ :: made, ?_, ?_, ?_⟩
    · rw [hmade, runs_doing]
      simp [Deed.run?]
    · refine List.pairwise_cons.mpr ⟨fun x hx => ?_, hsorted⟩
      obtain ⟨call', hw', hdue⟩ := hwaited x hx
      rcases (hd.waits_doing hdeed).mp hw' with ⟨hkept, hwas⟩ | ⟨hwait, -⟩
      · have hne : x.2 ≠ handle := fun heq => hkept (by
          rw [heq] at hwas
          rw [hwas.unique hw]
          rfl)
        have := hfirst x.2 call' hwas hne
        rwa [hdue] at this
      · cases hwait
    · intro x hx
      rcases List.mem_cons.mp hx with rfl | hx
      · exact ⟨call, hw, rfl⟩
      · obtain ⟨call', hw', hdue⟩ := hwaited x hx
        rcases (hd.waits_doing hdeed).mp hw' with ⟨-, hwas⟩ | ⟨hwait, -⟩
        · exact ⟨call', hwas, hdue⟩
        · cases hwait

/-- The runs by the loop are in order, and ahead of all that are still to come. -/
structure InOrder (d : Debouncer) : Prop where
  sorted : (timerRuns d.runs).Pairwise Sooner
  past : ∀ x ∈ timerRuns d.runs, x.1 ≤ d.loop.now ∧ x.2 < d.loop.nextHandle
  ahead : ∀ x ∈ timerRuns d.runs, ∀ handle call, d.loop.Waits handle call →
    Sooner x (call.due, handle)

/-- The call made next is behind all that have been made. -/
theorem InOrder.fire (h : d.InOrder) (hd : d.Tied) {target : Int} {call : LaterCall} {handle : Nat}
    (hnext : d.loop.next? target = some (call, handle)) :
    (d.doing (.fire call handle)).InOrder := by
  have hdeed : d.Possible (.fire call handle) := ⟨target, hnext⟩
  obtain ⟨hw, -, hfirst⟩ := (d.loop.next?_spec target).1 call handle hnext
  have hnow : (d.doing (.fire call handle)).loop.now = call.due := by simp [doing, Debouncer.fire]
  have hasked : (d.doing (.fire call handle)).loop.nextHandle = d.loop.nextHandle :=
    d.nextHandle_doing_of_ne_wait (by simp)
  constructor
  · rw [timerRuns_fire, List.pairwise_append]
    refine ⟨h.sorted, List.pairwise_singleton _ _, fun x hx y hy => ?_⟩
    rw [List.mem_singleton.mp hy]
    exact h.ahead x hx handle call hw
  · intro x hx
    rw [hnow, hasked]
    rw [timerRuns_fire, List.mem_append, List.mem_singleton] at hx
    rcases hx with hx | rfl
    · have hsooner := h.ahead x hx handle call hw
      unfold Sooner at hsooner
      exact ⟨by omega, (h.past x hx).2⟩
    · exact ⟨Int.le_refl _, hw.lt_nextHandle⟩
  · intro x hx handle' call' hw'
    rw [timerRuns_fire, List.mem_append, List.mem_singleton] at hx
    rcases (hd.waits_doing hdeed).mp hw' with ⟨hkept, hwas⟩ | ⟨hwait, -⟩
    · rcases hx with hx | rfl
      · exact h.ahead x hx handle' call' hwas
      · refine hfirst handle' call' hwas fun heq => hkept ?_
        rw [heq] at hwas
        rw [hwas.unique hw]
        rfl
    · cases hwait

/-- No other deed disturbs the order, unless it turns back the clock. -/
theorem InOrder.doing {deed : Deed} (h : d.InOrder) (hd : d.Tied) (hdeed : d.Possible deed)
    (hdelay : 0 ≤ d.delay) (hfire : ∀ call handle, deed ≠ .fire call handle)
    (hclock : ∀ now, deed = .setClock now → d.loop.now ≤ now) : (d.doing deed).InOrder := by
  have hruns : timerRuns (d.doing deed).runs = timerRuns d.runs := by
    rw [runs_doing, timerRuns_append]
    cases deed with
    | fire call handle => exact absurd rfl (hfire call handle)
    | _ => simp [Deed.run?, timerRuns, Run.timer?]
  have hnow : d.loop.now ≤ (d.doing deed).loop.now := by
    by_cases hset : ∃ now, deed = .setClock now
    · obtain ⟨now, rfl⟩ := hset
      exact hclock now rfl
    · exact Int.le_of_eq (d.now_doing (fun now heq => hset ⟨now, heq⟩) hfire).symm
  have hasked := nextHandle_doing_le d deed
  constructor
  · rw [hruns]
    exact h.sorted
  · intro x hx
    rw [hruns] at hx
    have hpast := h.past x hx
    exact ⟨Int.le_trans hpast.1 hnow, Nat.lt_of_lt_of_le hpast.2 hasked⟩
  · intro x hx handle call hw
    rw [hruns] at hx
    rcases (hd.waits_doing hdeed).mp hw with ⟨-, hwas⟩ | ⟨-, rfl, hcall⟩
    · exact h.ahead x hx handle call hwas
    · -- a call asked for now is due after all that have been made
      have hpast := h.past x hx
      rw [hcall]
      unfold Sooner
      dsimp only
      omega

/-- The order holds all along the way of the clock. -/
theorem InOrder.fires {target : Int} {d d' : Debouncer} (hfires : Fires target d d')
    (h : d.InOrder) (hd : d.Tied) (hdelay : 0 ≤ d.delay) (hnow : d.loop.now ≤ target) :
    d'.InOrder := by
  induction hfires with
  | @done d hnone =>
    refine h.doing hd trivial hdelay (by simp) fun now heq => ?_
    cases heq
    exact hnow
  | @fire d d' call handle hnext rest ih =>
    obtain ⟨-, hle, -⟩ := (d.loop.next?_spec target).1 call handle hnext
    have hdeed : d.Possible (.fire call handle) := ⟨target, hnext⟩
    refine ih (h.fire hd hnext) (hd.doing hdeed) ?_ ?_
    · rw [delay_doing]
      exact hdelay
    · simpa [Debouncer.doing, Debouncer.fire] using hle

/-- No action begins with the loop making a call, or with setting the clock. -/
theorem deedOfAction_ne (d : Debouncer) (a : Action) :
    (∀ call handle, d.deedOfAction a ≠ .fire call handle) ∧
      ∀ now, d.deedOfAction a ≠ .setClock now := by
  cases a with
  | schedule key =>
    rw [deedOfAction]
    split_ifs <;> simp
  | _ => simp [deedOfAction]

/-- **As long as the clock runs forward, the loop runs what is due first**, and of several what was
scheduled first. -/
theorem InOrder.step (h : d.InOrder) (hd : d.Plain) (hdelay : 0 ≤ d.delay) {a : Action}
    (ha : ∀ ms, a = .advance ms → 0 ≤ ms) : (d.step a).1.InOrder := by
  have htied := hd.sound.tied
  have hidle : (d.undertake a).2 = [] → (d.step a).1.InOrder := fun hnone => by
    rw [step_eq_doing hnone]
    obtain ⟨hfire, hclock⟩ := d.deedOfAction_ne a
    exact h.doing htied (Moment.possible_deed ⟨d, [.callback [a]]⟩) hdelay hfire
      fun now heq => absurd heq (hclock now)
  cases a with
  | schedule key => exact hidle (by simp [undertake, hd.clocked])
  | flush key =>
    rw [step_flush hd.passive]
    have hall : ∀ (keys : List String) (d : Debouncer), d.InOrder ∧ d.Tied ∧ 0 ≤ d.delay →
        (keys.foldl flushKey d).InOrder := by
      intro keys
      induction keys with
      | nil => exact fun d hd => hd.1
      | cons key keys ih =>
        refine fun d hd => ih _ (flushKey_preserves
          (P := fun d => d.InOrder ∧ d.Tied ∧ 0 ≤ d.delay) ?_ hd key)
        rintro d key handle ⟨h, htied, hdelay⟩ hget
        refine ⟨h.doing htied hget hdelay (by simp) (by simp), htied.doing hget, ?_⟩
        rwa [delay_doing]
    exact hall _ d ⟨h, htied, hdelay⟩
  | advance ms =>
    have hms := ha ms rfl
    exact InOrder.fires (fires_step hd.passive ms) h htied hdelay (by omega)
  | _ => exact hidle rfl

/-- **The loop runs keys in the order in which they are due.** -/
theorem inOrder_steps {delay : Int} {reactions : Entries String (List (List Action))}
    (h : Passive reactions) {actions : List Action}
    (hforward : ∀ ms, .advance ms ∈ actions → 0 ≤ ms) :
    ((new delay true reactions).steps actions).InOrder := by
  have hplain := plain_new delay h
  have hdelay : ∀ actions, 0 ≤ ((new delay true reactions).steps actions).delay := fun actions => by
    rw [delay_steps]
    exact Int.le_max_right delay 0
  induction actions using List.reverseRecOn with
  | nil =>
    exact ⟨List.Pairwise.nil, by simp [steps, new, timerRuns], by simp [steps, new, timerRuns]⟩
  | append_singleton actions a ih =>
    rw [steps_concat]
    refine (ih fun ms hms => hforward ms (List.mem_append_left _ hms)).step (hplain.steps actions)
      (hdelay actions) ?_
    rintro ms rfl
    exact hforward ms (by simp)

end Order

end Debouncer
end SymbolAtlas
