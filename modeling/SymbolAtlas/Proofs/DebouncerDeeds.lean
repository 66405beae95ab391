import SymbolAtlas.Debounce.Debouncer
import SymbolAtlas.Proofs.Entries
import SymbolAtlas.Proofs.EventLoop

/-!
# What a debouncer does from moment to moment

However deep callbacks, flushes and moves of the clock are nested, each tick does one of a few
things to the debouncer (`Debouncer.Deed`, `Debouncer.Moment.debouncer_tick`).  A deed frees the
handles of some keys, and `wait` gives one out (`Debouncer.get?_doing`); the calls of the loop go
along with the handles (`Debouncer.Tied.waits_doing`), so that at every moment the keys that have
handles are the keys that have a call waiting (`Debouncer.Sound`).
-/

namespace SymbolAtlas

/-- The handle of the call that a run goes back to. -/
def Trigger.handle? : Trigger → Option Nat
  | .timer handle | .flush handle => some handle
  | .atOnce => none

namespace Debouncer

/-! ### Deeds -/

/-- What a tick does to the debouncer, apart from the tasks that are under way. -/
inductive Deed where
  | nothing
  | setClock (now : Int)
  | wait (key : String)
  | cancel (key : String)
  | dispose
  | flush (key : String) (handle : Nat)
  | fire (call : LaterCall) (handle : Nat)
  | runAtOnce (key : String)
  deriving DecidableEq, Repr

/-- Does a deed. -/
def doing (d : Debouncer) : Deed → Debouncer
  | .nothing => d
  | .setClock now => { d with loop := d.loop.setClock now }
  | .wait key => d.wait key
  | .cancel key => (d.cancel key).1
  | .dispose => d.dispose
  | .flush key handle => ((d.cancel key).1.run key (.flush handle)).1
  | .fire call handle => (d.fire call handle).1
  | .runAtOnce key => ((d.cancel key).1.run key .atOnce).1

/-- The deed that an action begins with. -/
def deedOfAction (d : Debouncer) : Action → Deed
  | .schedule key => if d.clocked then .wait key else .runAtOnce key
  | .cancel key => .cancel key
  | .dispose => .dispose
  | .isPending _ | .flush _ | .advance _ | .fail => .nothing

/-- The deed that is the next bit of a task. -/
def deedOfTask (d : Debouncer) : Task → Deed
  | .callback [] | .flushing [] => .nothing
  | .callback (a :: _) => d.deedOfAction a
  | .flushing (key :: _) => (d.handles.get? key).elim .nothing (.flush key)
  | .advancing target => (d.loop.next? target).elim (.setClock target) fun x => .fire x.1 x.2

/-- The deed that comes next. -/
def Moment.deed (m : Moment) : Deed := (m.tasks.head?).elim .nothing m.debouncer.deedOfTask

/-- Cancelling erases the handle and marks the call, if there is one. -/
theorem cancel_eq (d : Debouncer) (key : String) :
    d.cancel key =
      ({ d with
          handles := d.handles.erase key
          loop := (d.handles.get? key).elim d.loop (d.loop.mark · .cancelled) },
        d.handles.get? key) := by
  unfold cancel
  cases h : d.handles.get? key with
  | none =>
    have hout : d.handles.erase key = d.handles := by
      have hkey := Entries.get?_eq_none_iff.mp h
      rcases hd : d.handles with ⟨es⟩
      rw [hd, Entries.keys, List.mem_map] at hkey
      refine congrArg Entries.mk (List.filter_eq_self.mpr fun e he => ?_)
      simpa using fun hek => hkey ⟨e, he, hek⟩
    simp [hout]
  | some handle => rfl

/-- An action begins with its deed. -/
theorem undertake_fst (d : Debouncer) (a : Action) :
    (d.undertake a).1 = d.doing (d.deedOfAction a) := by
  cases a with
  | schedule key =>
    simp only [undertake, deedOfAction]
    split_ifs <;> rfl
  | flush key => cases key <;> rfl
  | _ => rfl

/-- A callback takes one action after the other. -/
theorem carryOn_action (d : Debouncer) {a : Action} (h : a ≠ .fail) (rest : List Action) :
    d.carryOn (.callback (a :: rest)) =
      ((d.undertake a).1, (d.undertake a).2 ++ [.callback rest]) := by
  cases a <;> first | rfl | exact absurd rfl h

/-- The turn of a key in a flush. -/
theorem carryOn_flushing (d : Debouncer) (key : String) (keys : List String) :
    d.carryOn (.flushing (key :: keys)) =
      (d.handles.get? key).elim (d, [.flushing keys]) fun handle =>
        (d.doing (.flush key handle),
          [.callback ((d.cancel key).1.run key (.flush handle)).2, .flushing keys]) := by
  simp only [carryOn, doing, cancel]
  cases d.handles.get? key <;> rfl

/-- On its way the clock lets the loop make its next call, or arrives. -/
theorem carryOn_advancing (d : Debouncer) (target : Int) :
    d.carryOn (.advancing target) =
      (d.loop.next? target).elim (d.doing (.setClock target), []) fun x =>
        (d.doing (.fire x.1 x.2), [.callback (d.fire x.1 x.2).2, .advancing target]) := by
  simp only [carryOn, doing]
  cases d.loop.next? target <;> rfl

/-- The next bit of a task is its deed. -/
theorem carryOn_fst (d : Debouncer) (task : Task) :
    (d.carryOn task).1 = d.doing (d.deedOfTask task) := by
  cases task with
  | callback actions =>
    cases actions with
    | nil => rfl
    | cons a rest =>
      by_cases h : a = .fail
      · rw [h]
        rfl
      · rw [carryOn_action d h, undertake_fst]
        rfl
  | flushing keys =>
    cases keys with
    | nil => rfl
    | cons key keys =>
      rw [carryOn_flushing, deedOfTask]
      cases d.handles.get? key <;> rfl
  | advancing target =>
    rw [carryOn_advancing, deedOfTask]
    cases d.loop.next? target <;> rfl

/-- **A tick does one deed.** -/
theorem Moment.debouncer_tick (m : Moment) : m.tick.debouncer = m.debouncer.doing m.deed := by
  rcases m with ⟨d, tasks⟩
  cases tasks with
  | nil => rfl
  | cons task tasks => exact d.carryOn_fst task

/-- What can be said of the debouncer when it comes to a deed. -/
def Possible (d : Debouncer) : Deed → Prop
  | .wait _ => d.clocked = true
  | .runAtOnce _ => d.clocked = false
  | .flush key handle => d.handles.get? key = some handle
  | .fire call handle => ∃ target, d.loop.next? target = some (call, handle)
  | .nothing | .setClock _ | .cancel _ | .dispose => True

/-- A deed is done only when it is possible. -/
theorem Moment.possible_deed (m : Moment) : m.debouncer.Possible m.deed := by
  rcases m with ⟨d, tasks⟩
  cases tasks with
  | nil => trivial
  | cons task tasks =>
    change d.Possible (d.deedOfTask task)
    cases task with
    | callback actions =>
      cases actions with
      | nil => trivial
      | cons a rest =>
        cases a with
        | schedule key =>
          simp only [deedOfTask, deedOfAction]
          split_ifs with h
          · exact h
          · exact Bool.eq_false_iff.mpr h
        | _ => trivial
    | flushing keys =>
      cases keys with
      | nil => trivial
      | cons key keys =>
        rw [deedOfTask]
        cases h : d.handles.get? key with
        | none => trivial
        | some handle => exact h
    | advancing target =>
      rw [deedOfTask]
      cases h : d.loop.next? target with
      | none => trivial
      | some x => exact ⟨target, h⟩

/-! ### What deeds leave behind -/

/-- Whether a deed gives up the handle of a key. -/
def Deed.Frees : Deed → String → Prop
  | .nothing, _ | .setClock _, _ => False
  | .wait key, k | .cancel key, k | .flush key _, k | .runAtOnce key, k => k = key
  | .fire call _, k => k = call.key
  | .dispose, _ => True

/-- The run that a deed makes of some callback. -/
def Deed.run? (d : Debouncer) : Deed → Option Run
  | .flush key handle => some ⟨key, d.loop.now, .flush handle⟩
  | .fire call handle => some ⟨call.key, call.due, .timer handle⟩
  | .runAtOnce key => some ⟨key, d.loop.now, .atOnce⟩
  | .nothing | .setClock _ | .wait _ | .cancel _ | .dispose => none

/-! ### The fields one by one -/

section Fields

variable (d : Debouncer) (key : String) (trigger : Trigger)

@[simp] theorem handles_cancel : (d.cancel key).1.handles = d.handles.erase key := by
  rw [cancel_eq]

@[simp] theorem runs_cancel : (d.cancel key).1.runs = d.runs := by rw [cancel_eq]

@[simp] theorem clocked_cancel : (d.cancel key).1.clocked = d.clocked := by rw [cancel_eq]

@[simp] theorem delay_cancel : (d.cancel key).1.delay = d.delay := by rw [cancel_eq]

theorem loop_cancel : (d.cancel key).1.loop =
    (d.handles.get? key).elim d.loop (d.loop.mark · .cancelled) := by
  rw [cancel_eq]

@[simp] theorem now_cancel : (d.cancel key).1.loop.now = d.loop.now := by
  rw [loop_cancel]
  cases d.handles.get? key <;> rfl

@[simp] theorem nextHandle_cancel : (d.cancel key).1.loop.nextHandle = d.loop.nextHandle := by
  rw [loop_cancel]
  cases d.handles.get? key <;> simp

/-- A run is noted, and one reaction is used up. -/
theorem run_fst : ∃ reactions, (d.run key trigger).1 =
    { d with reactions := reactions, runs := d.runs ++ [⟨key, d.loop.now, trigger⟩] } := by
  unfold run
  dsimp only
  split <;> exact ⟨_, rfl⟩

@[simp] theorem handles_run : (d.run key trigger).1.handles = d.handles := by
  obtain ⟨_, h⟩ := d.run_fst key trigger
  rw [h]

@[simp] theorem loop_run : (d.run key trigger).1.loop = d.loop := by
  obtain ⟨_, h⟩ := d.run_fst key trigger
  rw [h]

@[simp] theorem clocked_run : (d.run key trigger).1.clocked = d.clocked := by
  obtain ⟨_, h⟩ := d.run_fst key trigger
  rw [h]

@[simp] theorem delay_run : (d.run key trigger).1.delay = d.delay := by
  obtain ⟨_, h⟩ := d.run_fst key trigger
  rw [h]

@[simp] theorem runs_run :
    (d.run key trigger).1.runs = d.runs ++ [⟨key, d.loop.now, trigger⟩] := by
  obtain ⟨_, h⟩ := d.run_fst key trigger
  rw [h]

/-- A key that starts to wait goes to the end. -/
theorem handles_wait : (d.wait key).handles = d.handles.putLast key d.loop.nextHandle := by
  have hgone : key ∉ (d.handles.erase key).keys := by
    rw [← Entries.get?_eq_none_iff, Entries.get?_erase, if_pos rfl]
  simp only [wait, handles_cancel, nextHandle_cancel]
  exact congrArg Entries.mk (Entries.toList_put_of_notMem hgone _)

@[simp] theorem loop_wait :
    (d.wait key).loop = (d.cancel key).1.loop.callLater d.delay key := by
  simp [wait]

end Fields

/-- Cancels keys one after the other. -/
def cancelAll (keys : List String) (d : Debouncer) : Debouncer :=
  keys.foldl (fun d key => (d.cancel key).1) d

theorem cancelAll_cons (key : String) (keys : List String) (d : Debouncer) :
    d.cancelAll (key :: keys) = (d.cancel key).1.cancelAll keys := rfl

theorem dispose_eq (d : Debouncer) : d.dispose = d.cancelAll d.pending := rfl

/-- What no cancelling changes, cancelling all keys does not change either. -/
theorem cancelAll_keeps {α : Type} {f : Debouncer → α} (h : ∀ d key, f (d.cancel key).1 = f d)
    (keys : List String) (d : Debouncer) : f (d.cancelAll keys) = f d := by
  induction keys generalizing d with
  | nil => rfl
  | cons key keys ih => rw [cancelAll_cons, ih, h]

/-- Cancelled keys have no handles. -/
theorem get?_cancelAll (keys : List String) (d : Debouncer) (k : String) :
    (d.cancelAll keys).handles.get? k = if k ∈ keys then none else d.handles.get? k := by
  induction keys generalizing d with
  | nil => simp [cancelAll]
  | cons key keys ih =>
    rw [cancelAll_cons, ih, handles_cancel, Entries.get?_erase]
    by_cases hk : k = key <;> simp [hk]

/-- After disposal no key has. -/
theorem get?_dispose (d : Debouncer) (k : String) : d.dispose.handles.get? k = none := by
  rw [dispose_eq, get?_cancelAll]
  split_ifs with hk
  · rfl
  · exact Entries.get?_eq_none_iff.mpr hk

/-- **A deed takes some handles away** and gives at most one out. -/
theorem get?_doing (d : Debouncer) (deed : Deed) (k : String) (handle : Nat) :
    (d.doing deed).handles.get? k = some handle ↔
      ¬ deed.Frees k ∧ d.handles.get? k = some handle ∨
        deed = .wait k ∧ handle = d.loop.nextHandle := by
  have herase : ∀ key, (d.handles.erase key).get? k = some handle ↔
      ¬ k = key ∧ d.handles.get? k = some handle := fun key => by
    rw [Entries.get?_erase]
    split_ifs with h <;> simp [h]
  cases deed with
  | nothing => simp [doing, Deed.Frees]
  | setClock now => simp [doing, Deed.Frees]
  | wait key =>
    rw [doing, handles_wait, Entries.get?_putLast]
    split_ifs with h
    · simp [h, Deed.Frees, eq_comm]
    · simp [h, Deed.Frees, Ne.symm h]
  | cancel key => simpa [doing, Deed.Frees] using herase key
  | dispose => simp [doing, Deed.Frees, get?_dispose]
  | flush key h => simpa [doing, Deed.Frees] using herase key
  | fire call h => simpa [doing, fire, Deed.Frees] using herase call.key
  | runAtOnce key => simpa [doing, Deed.Frees] using herase key

/-- A deed makes at most one run. -/
theorem runs_doing (d : Debouncer) (deed : Deed) :
    (d.doing deed).runs = d.runs ++ (deed.run? d).toList := by
  cases deed with
  | dispose =>
    rw [doing, dispose_eq, cancelAll_keeps (f := Debouncer.runs) runs_cancel]
    simp [Deed.run?]
  | fire call h => simp [doing, fire, Deed.run?]
  | wait key => simp [doing, wait, Deed.run?]
  | _ => simp [doing, Deed.run?]

/-! ### Handles and calls -/

/-- The keys with handles are the keys with a call waiting, by that handle. -/
def Tied (d : Debouncer) : Prop :=
  ∀ key handle, d.handles.get? key = some handle ↔ ∃ call, d.loop.Waits handle call ∧ call.key = key

namespace Tied

variable {d : Debouncer}

/-- No key has two calls waiting. -/
theorem handle_eq (hd : d.Tied) {handle handle' : Nat} {call call' : LaterCall}
    (h : d.loop.Waits handle call) (h' : d.loop.Waits handle' call') (hkey : call.key = call'.key) :
    handle = handle' := by
  have hget := (hd call'.key handle).mpr ⟨call, h, hkey⟩
  exact Option.some.inj (hget.symm.trans ((hd call'.key handle').mpr ⟨call', h', rfl⟩))

/-- Marking the call of a key as settled ends its wait and no other one. -/
theorem waits_mark (hd : d.Tied) {key : String} {handle handle' : Nat} {state : CallState}
    {call : LaterCall} (hget : d.handles.get? key = some handle) (hstate : state ≠ .waiting) :
    (d.loop.mark handle state).Waits handle' call ↔ call.key ≠ key ∧ d.loop.Waits handle' call := by
  obtain ⟨mine, hmine, hkey⟩ := (hd key handle).mp hget
  rw [Loop.waits_mark hstate]
  refine and_congr_left fun hw => not_congr ⟨?_, fun h => ?_⟩
  · rintro rfl
    rw [hw.unique hmine, hkey]
  · exact hd.handle_eq hmine hw (hkey.trans h.symm)

/-- Cancelling a key ends its wait and no other one. -/
theorem waits_cancel (hd : d.Tied) {key : String} {handle : Nat} {call : LaterCall} :
    (d.cancel key).1.loop.Waits handle call ↔ call.key ≠ key ∧ d.loop.Waits handle call := by
  rw [loop_cancel]
  cases hget : d.handles.get? key with
  | none =>
    refine (and_iff_right_of_imp fun hw hkey => ?_).symm
    simp [(hd key handle).mpr ⟨call, hw, hkey⟩] at hget
  | some mine => exact hd.waits_mark hget (by decide)

/-- Cancelling keeps handles and calls tied. -/
theorem cancel (hd : d.Tied) (key : String) : (d.cancel key).1.Tied := by
  intro k handle
  rw [handles_cancel, Entries.get?_erase]
  simp only [hd.waits_cancel]
  split_ifs with hk
  · refine iff_of_false (by simp) ?_
    rintro ⟨call, ⟨hne, -⟩, hkey⟩
    exact hne (hkey.trans hk)
  · rw [hd k handle]
    refine exists_congr fun call => ⟨fun h => ⟨⟨?_, h.1⟩, h.2⟩, fun h => ⟨h.1.2, h.2⟩⟩
    rw [h.2]
    exact hk

/-- Cancelling keys ends their waits and no other one. -/
theorem waits_cancelAll (hd : d.Tied) {keys : List String} {handle : Nat} {call : LaterCall} :
    (d.cancelAll keys).loop.Waits handle call ↔ call.key ∉ keys ∧ d.loop.Waits handle call := by
  induction keys generalizing d with
  | nil => simp [cancelAll]
  | cons key keys ih =>
    rw [cancelAll_cons, ih (hd.cancel key), hd.waits_cancel, List.mem_cons, not_or]
    tauto

/-- **The calls that wait go along with the handles.** -/
theorem waits_doing (hd : d.Tied) {deed : Deed} (hdeed : d.Possible deed) {handle : Nat}
    {call : LaterCall} :
    (d.doing deed).loop.Waits handle call ↔
      ¬ deed.Frees call.key ∧ d.loop.Waits handle call ∨
        deed = .wait call.key ∧ handle = d.loop.nextHandle ∧
          call = ⟨call.key, d.loop.now + d.delay, .waiting⟩ := by
  cases deed with
  | nothing => simp [doing, Deed.Frees]
  | setClock now => simp [doing, Deed.Frees]
  | wait key =>
    rw [doing, loop_wait, Loop.waits_callLater, hd.waits_cancel, nextHandle_cancel, now_cancel]
    simp only [Deed.Frees, Deed.wait.injEq]
    rw [or_comm]
    refine or_congr_right ⟨?_, ?_⟩
    · rintro ⟨rfl, rfl⟩
      exact ⟨rfl, rfl, rfl⟩
    · rintro ⟨rfl, rfl, hcall⟩
      exact ⟨rfl, hcall⟩
  | cancel key => simpa [doing, Deed.Frees] using hd.waits_cancel
  | dispose =>
    simp only [doing, dispose_eq, hd.waits_cancelAll, Deed.Frees, not_true, false_and, reduceCtorEq,
      or_false, iff_false]
    rintro ⟨hout, hw⟩
    have hget := (hd call.key handle).mpr ⟨call, hw, rfl⟩
    rw [Entries.get?_eq_none_iff.mpr hout] at hget
    cases hget
  | flush key h => simpa [doing, Deed.Frees] using hd.waits_cancel
  | fire mine h =>
    obtain ⟨target, hnext⟩ := hdeed
    have hmine := ((d.loop.next?_spec target).1 mine h hnext).1
    have hget := (hd mine.key h).mpr ⟨mine, hmine, rfl⟩
    have hmark : (d.loop.mark h .made).Waits handle call ↔ _ := hd.waits_mark hget (by decide)
    simpa [doing, fire, Deed.Frees] using hmark
  | runAtOnce key => simpa [doing, Deed.Frees] using hd.waits_cancel

/-- **No deed unties handles and calls.** -/
theorem doing (hd : d.Tied) {deed : Deed} (hdeed : d.Possible deed) : (d.doing deed).Tied := by
  intro key handle
  simp only [get?_doing, hd.waits_doing hdeed, hd key handle]
  constructor
  · rintro (⟨hkept, call, hw, rfl⟩ | ⟨hwait, rfl⟩)
    · exact ⟨call, Or.inl ⟨hkept, hw⟩, rfl⟩
    · exact ⟨⟨key, d.loop.now + d.delay, .waiting⟩, Or.inr ⟨hwait, rfl, rfl⟩, rfl⟩
  · rintro ⟨call, ⟨hkept, hw⟩ | ⟨hwait, hhandle, -⟩, rfl⟩
    · exact Or.inl ⟨hkept, call, hw, rfl⟩
    · exact Or.inr ⟨hwait, hhandle⟩

end Tied

/-! ### The order of the handles -/

/-- What is not cancelled keeps its order. -/
theorem handles_cancelAll_sublist (keys : List String) (d : Debouncer) :
    (d.cancelAll keys).handles.toList.Sublist d.handles.toList := by
  induction keys generalizing d with
  | nil => exact List.Sublist.refl _
  | cons key keys ih =>
    refine (ih (d.cancel key).1).trans ?_
    rw [handles_cancel]
    exact List.filter_sublist

/-- The handles that a deed leaves keep their order, and a new one comes last. -/
theorem handles_doing (d : Debouncer) (deed : Deed) :
    (d.doing deed).handles.toList.Sublist d.handles.toList ∨
      ∃ key, deed = .wait key ∧
        (d.doing deed).handles = d.handles.putLast key d.loop.nextHandle := by
  have herase : ∀ key, (d.handles.erase key).toList.Sublist d.handles.toList := fun _ =>
    List.filter_sublist
  cases deed with
  | nothing => exact Or.inl (List.Sublist.refl _)
  | setClock now => exact Or.inl (List.Sublist.refl _)
  | wait key => exact Or.inr ⟨key, rfl, d.handles_wait key⟩
  | cancel key => exact Or.inl (by simpa [doing] using herase key)
  | dispose => exact Or.inl (d.handles_cancelAll_sublist d.pending)
  | flush key handle => exact Or.inl (by simpa [doing] using herase key)
  | fire call handle => exact Or.inl (by simpa [doing, fire] using herase call.key)
  | runAtOnce key => exact Or.inl (by simpa [doing] using herase key)

theorem clocked_doing (d : Debouncer) (deed : Deed) : (d.doing deed).clocked = d.clocked := by
  cases deed with
  | dispose => exact cancelAll_keeps clocked_cancel d.pending d
  | _ => simp [doing, wait, fire]

theorem delay_doing (d : Debouncer) (deed : Deed) : (d.doing deed).delay = d.delay := by
  cases deed with
  | dispose => exact cancelAll_keeps delay_cancel d.pending d
  | _ => simp [doing, wait, fire]

/-- Only a wait takes a handle. -/
theorem nextHandle_doing_of_ne_wait (d : Debouncer) {deed : Deed} (h : ∀ key, deed ≠ .wait key) :
    (d.doing deed).loop.nextHandle = d.loop.nextHandle := by
  cases deed with
  | wait key => exact absurd rfl (h key)
  | dispose =>
    exact cancelAll_keeps (f := fun d => d.loop.nextHandle) nextHandle_cancel d.pending d
  | _ => simp [doing, fire]

theorem nextHandle_wait (d : Debouncer) (key : String) :
    (d.doing (.wait key)).loop.nextHandle = d.loop.nextHandle + 1 := by
  simp [doing]

/-! ### What holds at every moment -/

/-- The runs that go back to the call with a handle. -/
def runsBy (d : Debouncer) (handle : Nat) : List Run :=
  d.runs.filter (·.trigger.handle? = some handle)

/-- A debouncer whose handles stand for the calls that wait, in the order in which these were asked
for, and that has run no callback ahead of its time. -/
structure Sound (d : Debouncer) : Prop where
  tied : d.Tied
  nodup : d.pending.Nodup
  increasing : d.handles.toList.Pairwise fun x y => x.2 < y.2
  /-- Without a loop nothing waits. -/
  unclocked : d.clocked = false → d.pending = []
  unrun : ∀ handle call, d.loop.Waits handle call → d.runsBy handle = []
  unknown : ∀ handle, d.loop.nextHandle ≤ handle → d.runsBy handle = []

/-- A new debouncer is sound. -/
theorem sound_new (delay : Int) (clocked : Bool)
    (reactions : Entries String (List (List Action))) : (new delay clocked reactions).Sound where
  tied key handle := by
    refine iff_of_false (by simp [new]) ?_
    rintro ⟨call, hw, -⟩
    simp [new, Loop.start, Loop.Waits] at hw
  nodup := List.nodup_nil
  increasing := List.Pairwise.nil
  unclocked _ := rfl
  unrun _ _ _ := rfl
  unknown _ _ := rfl

/-- A call has the runs it had, and that of the deed if it is its own. -/
theorem runsBy_doing (d : Debouncer) (deed : Deed) (handle : Nat) :
    (d.doing deed).runsBy handle =
      d.runsBy handle ++ (deed.run? d).toList.filter (·.trigger.handle? = some handle) := by
  rw [runsBy, runs_doing, List.filter_append]
  rfl

namespace Sound

variable {d : Debouncer} {deed : Deed}

/-- Only a call that waits leads to a run. -/
theorem waits_of_run (hd : d.Sound) (hdeed : d.Possible deed) {r : Run} {handle : Nat}
    (hr : deed.run? d = some r) (hhandle : r.trigger.handle? = some handle) :
    ∃ call, d.loop.Waits handle call ∧ call.key = r.key ∧ deed.Frees call.key := by
  cases deed with
  | flush key h =>
    obtain ⟨call, hw, hkey⟩ := (hd.tied key h).mp hdeed
    cases hr
    cases hhandle
    exact ⟨call, hw, hkey, hkey⟩
  | fire call h =>
    obtain ⟨target, hnext⟩ := hdeed
    have hw := ((d.loop.next?_spec target).1 call h hnext).1
    cases hr
    cases hhandle
    exact ⟨call, hw, rfl, rfl⟩
  | runAtOnce key =>
    cases hr
    cases hhandle
  | _ => cases hr

/-- **A handle is freed either by running its key or by giving it up.** -/
theorem freed (hd : d.Sound) (hdeed : d.Possible deed) {key : String} {handle : Nat}
    (hget : d.handles.get? key = some handle) (hfrees : deed.Frees key) :
    ((deed = .flush key handle ∨ ∃ call, deed = .fire call handle) ∧
        ∃ r, deed.run? d = some r ∧ r.key = key ∧ r.trigger.handle? = some handle) ∨
      (deed = .cancel key ∨ deed = .wait key ∨ deed = .dispose) ∧ deed.run? d = none := by
  cases deed with
  | nothing => exact hfrees.elim
  | setClock now => exact hfrees.elim
  | wait k =>
    obtain rfl : key = k := hfrees
    exact Or.inr ⟨Or.inr (Or.inl rfl), rfl⟩
  | cancel k =>
    obtain rfl : key = k := hfrees
    exact Or.inr ⟨Or.inl rfl, rfl⟩
  | dispose => exact Or.inr ⟨Or.inr (Or.inr rfl), rfl⟩
  | flush k h =>
    obtain rfl : key = k := hfrees
    obtain rfl : handle = h := Option.some.inj (hget.symm.trans hdeed)
    exact Or.inl ⟨Or.inl rfl, _, rfl, rfl, rfl⟩
  | fire call h =>
    obtain rfl : key = call.key := hfrees
    obtain ⟨target, hnext⟩ := hdeed
    have hw := ((d.loop.next?_spec target).1 call h hnext).1
    obtain rfl : handle = h :=
      Option.some.inj (hget.symm.trans ((hd.tied call.key h).mpr ⟨call, hw, rfl⟩))
    exact Or.inl ⟨Or.inr ⟨call, rfl⟩, _, rfl, rfl, rfl⟩
  | runAtOnce k =>
    -- without a loop there is no handle to be freed
    have hnone : key ∉ d.handles.keys := by
      rw [show d.handles.keys = [] from hd.unclocked hdeed]
      exact List.not_mem_nil
    rw [Entries.get?_eq_none_iff.mpr hnone] at hget
    cases hget

/-- The runs of a call stay the same unless it is that call which is run. -/
theorem runsBy_doing_of_not_waits (hd : d.Sound) (hdeed : d.Possible deed) {handle : Nat}
    (h : ∀ call, ¬ d.loop.Waits handle call) : (d.doing deed).runsBy handle = d.runsBy handle := by
  rw [runsBy_doing]
  cases hr : deed.run? d with
  | none => simp
  | some r =>
    have hother : r.trigger.handle? ≠ some handle := fun hhandle => by
      obtain ⟨call, hw, -⟩ := hd.waits_of_run hdeed hr hhandle
      exact h call hw
    simp [hother]

/-- Handles are below the next one. -/
theorem lt_nextHandle (hd : d.Sound) {x : String × Nat} (hx : x ∈ d.handles.toList) :
    x.2 < d.loop.nextHandle := by
  obtain ⟨call, hw, -⟩ := (hd.tied x.1 x.2).mp (Entries.get?_of_mem hd.nodup hx)
  exact hw.lt_nextHandle

/-- **No deed breaks a sound debouncer.** -/
theorem doing (hd : d.Sound) (hdeed : d.Possible deed) : (d.doing deed).Sound where
  tied := hd.tied.doing hdeed
  nodup := by
    rcases d.handles_doing deed with hsub | ⟨key, -, hput⟩
    · exact hd.nodup.sublist (hsub.map Prod.fst)
    · rw [pending, hput]
      exact Entries.nodup_keys_putLast hd.nodup key _
  increasing := by
    rcases d.handles_doing deed with hsub | ⟨key, -, hput⟩
    · exact hd.increasing.sublist hsub
    · rw [hput, Entries.putLast, List.pairwise_append]
      refine ⟨hd.increasing.sublist List.filter_sublist, List.pairwise_singleton _ _, ?_⟩
      intro x hx y hy
      rw [List.mem_singleton.mp hy]
      exact hd.lt_nextHandle (List.mem_of_mem_filter hx)
  unclocked h := by
    rw [clocked_doing] at h
    have hnone := hd.unclocked h
    rcases d.handles_doing deed with hsub | ⟨key, rfl, -⟩
    · have hkeys := hsub.map Prod.fst
      rw [show d.handles.toList.map Prod.fst = [] from hnone] at hkeys
      exact List.sublist_nil.mp hkeys
    · exact absurd (hdeed.symm.trans h) (by decide)
  unrun handle call hw := by
    rcases (hd.tied.waits_doing hdeed).mp hw with ⟨hkept, hwas⟩ | ⟨rfl, rfl, -⟩
    · -- a run by this handle would have freed the key
      rw [runsBy_doing, hd.unrun handle call hwas, List.nil_append]
      cases hr : deed.run? d with
      | none => rfl
      | some r =>
        have hother : r.trigger.handle? ≠ some handle := fun hhandle => by
          obtain ⟨call', hw', -, hfrees⟩ := hd.waits_of_run hdeed hr hhandle
          rw [hw'.unique hwas] at hfrees
          exact hkept hfrees
        simp [hother]
    · rw [runsBy_doing, hd.unknown _ (Nat.le_refl _)]
      rfl
  unknown handle hle := by
    have hbefore : d.loop.nextHandle ≤ handle := by
      by_cases hwait : ∃ key, deed = .wait key
      · obtain ⟨key, rfl⟩ := hwait
        rw [nextHandle_wait] at hle
        omega
      · rwa [d.nextHandle_doing_of_ne_wait fun key hkey => hwait ⟨key, hkey⟩] at hle
    rw [hd.runsBy_doing_of_not_waits hdeed fun call hw =>
      absurd hw.lt_nextHandle (Nat.not_lt.mpr hbefore)]
    exact hd.unknown handle hbefore

end Sound

end Debouncer
end SymbolAtlas
