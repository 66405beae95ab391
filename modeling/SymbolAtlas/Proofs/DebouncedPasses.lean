import Mathlib.Data.List.Sort
import SymbolAtlas.Proofs.PassiveCallbacks
import SymbolAtlas.Proofs.Recording

/-!
# The timers of a session are those of a debouncer

A debouncer waits on the calls of an event loop, and its callbacks may use it; a session keeps
nothing but timers.  The calls that wait are the timers of the debouncer (`Debouncer.timers`), and
each deed does to them what the operation of that name does to timers (`Debouncer.timers_doing`).
So with callbacks that leave the debouncer alone, a session waits and makes its passes as the
debouncer waits and runs its callbacks (`Session.along_ask`).
-/

namespace SymbolAtlas

/-! ### The calls that wait -/

/-- The timer that a call is for. -/
def LaterCall.timer (c : LaterCall) : Timer := ⟨c.key, c.due⟩

namespace Loop

variable {l : Loop}

/-- The calls that wait with their handles, in the order in which they were asked for. -/
def live (l : Loop) : List (LaterCall × Nat) := l.calls.zipIdx.filter (·.1.state = .waiting)

/-- Listed are the calls that wait. -/
theorem mem_live {x : LaterCall × Nat} : x ∈ l.live ↔ l.Waits x.2 x.1 := by
  simp [live, Waits, List.mem_zipIdx_iff_getElem?]

/-- They are listed in the order of their handles. -/
theorem pairwise_live (l : Loop) : l.live.Pairwise fun x y => x.2 < y.2 := by
  refine List.Pairwise.filter _ ?_
  rw [← List.pairwise_map (f := Prod.snd) (R := fun i j : Nat => i < j), List.zipIdx_map_snd]
  exact List.pairwise_lt_range'

/-- Calls in the order of their handles are told apart by which ones they are. -/
theorem eq_of_pairwise {α : Type} {xs ys : List (α × Nat)}
    (hxs : xs.Pairwise fun x y => x.2 < y.2) (hys : ys.Pairwise fun x y => x.2 < y.2)
    (h : ∀ x, x ∈ xs ↔ x ∈ ys) : xs = ys := by
  have hantisymm : Std.Antisymm fun x y : α × Nat => x.2 < y.2 :=
    ⟨fun _ _ hlt hgt => absurd hgt (Nat.lt_asymm hlt)⟩
  have hirrefl : Std.Irrefl fun x y : α × Nat => x.2 < y.2 := ⟨fun _ => Nat.lt_irrefl _⟩
  exact hxs.eq_of_mem_iff hys h

/-- The call to be made next is looked for among those that wait. -/
theorem next?_eq (l : Loop) (limit : Int) :
    l.next? limit = l.live.foldl (fun best x =>
      if x.1.due ≤ limit && best.all fun b => x.1.due < b.1.due then some x else best) none := by
  rw [live, List.foldl_filter]
  refine congrArg (fun f => l.calls.zipIdx.foldl f none) (funext₂ fun best x => ?_)
  by_cases h : x.1.state = .waiting <;> simp [h]

end Loop

/-! ### Deeds on timers -/

namespace Timers

/-- What a deed of the debouncer does to timers. -/
def doing (delay : Int) (t : Timers) : Debouncer.Deed → Timers
  | .nothing => t
  | .setClock now => t.setClock now
  | .wait key => t.schedule delay key
  | .cancel key | .flush key _ | .runAtOnce key => t.cancel key
  | .dispose => t.clear
  | .fire call _ => t.goOff call.timer

end Timers

namespace Debouncer

variable {d : Debouncer}

/-- The clock of a debouncer, and a timer for each call that waits. -/
def timers (d : Debouncer) : Timers := ⟨d.loop.now, d.loop.live.map (·.1.timer)⟩

section Deeds

variable {deed : Deed}

/-- A deed leaves the calls whose keys it does not free, unless it starts a wait. -/
theorem live_doing (hd : d.Tied) (hdeed : d.Possible deed) (hwait : ∀ key, deed ≠ .wait key)
    (kept : String → Bool) (hkept : ∀ key, kept key = true ↔ ¬ deed.Frees key) :
    (d.doing deed).loop.live = d.loop.live.filter (kept ·.1.key) := by
  refine Loop.eq_of_pairwise (Loop.pairwise_live _) ((Loop.pairwise_live _).filter _) fun x => ?_
  rw [Loop.mem_live, hd.waits_doing hdeed, List.mem_filter, Loop.mem_live, hkept, and_comm,
    or_iff_left fun hnew => hwait _ hnew.1]

/-- A wait puts a new call in place of the one there was. -/
theorem live_wait (hd : d.Tied) (hclocked : d.clocked = true) (key : String) :
    (d.doing (.wait key)).loop.live = d.loop.live.filter (·.1.key ≠ key) ++
      [(⟨key, d.loop.now + d.delay, .waiting⟩, d.loop.nextHandle)] := by
  have hdeed : d.Possible (.wait key) := hclocked
  refine Loop.eq_of_pairwise (Loop.pairwise_live _) ?_ fun x => ?_
  · refine List.pairwise_append.mpr
      ⟨(Loop.pairwise_live _).filter _, List.pairwise_singleton _ _, fun x hx y hy => ?_⟩
    rw [List.mem_singleton.mp hy]
    exact (Loop.mem_live.mp (List.mem_filter.mp hx).1).lt_nextHandle
  · rw [Loop.mem_live, hd.waits_doing hdeed, List.mem_append, List.mem_filter, Loop.mem_live,
      List.mem_singleton, and_comm]
    refine or_congr (by simp [Deed.Frees]) ?_
    rcases x with ⟨⟨key', due, state⟩, handle⟩
    simp only [Deed.wait.injEq, LaterCall.mk.injEq, Prod.mk.injEq, true_and]
    grind

/-- **Each deed is an operation on the timers**, whatever the callbacks do. -/
theorem timers_doing (hd : d.Tied) (hdeed : d.Possible deed) :
    (d.doing deed).timers = d.timers.doing d.delay deed := by
  have hgone : ∀ {key : String}, (∀ k, deed ≠ .wait k) → (∀ k, deed.Frees k ↔ k = key) →
      (d.doing deed).loop.live.map (·.1.timer) = (d.timers.cancel key).waiting := by
    intro key hwait hfrees
    rw [live_doing hd hdeed hwait (· ≠ key) (by simp [hfrees]), timers,
      Timers.cancel, List.filter_map]
    rfl
  cases deed with
  | nothing | setClock => rfl
  | wait key =>
    simp only [timers, live_wait hd hdeed, Timers.doing, Timers.schedule, Timers.cancel,
      List.map_append, List.filter_map]
    simp [doing, LaterCall.timer, Function.comp_def]
  | cancel key | flush key handle | runAtOnce key =>
    rw [timers, now_doing d (by simp) (by simp), hgone (by simp) fun k => Iff.rfl]
    rfl
  | dispose =>
    rw [timers, now_doing d (by simp) (by simp),
      live_doing hd hdeed (by simp) (fun _ => false) (by simp [Deed.Frees])]
    simp [Timers.doing, Timers.clear, timers]
  | fire call handle =>
    have hnow : (d.doing (.fire call handle)).loop.now = call.due := by simp [doing, fire]
    rw [timers, hnow, hgone (by simp) fun k => Iff.rfl]
    rfl

end Deeds

/-- The next timer is that of the call to be made next. -/
theorem next?_timers (d : Debouncer) (limit : Int) :
    d.timers.next? limit = (d.loop.next? limit).map (·.1.timer) := by
  rw [Loop.next?_eq, Timers.next?, timers, List.foldl_map]
  symm
  refine (List.foldl_hom (Option.map fun x : LaterCall × Nat => x.1.timer) fun best x => ?_).symm
  rw [apply_ite (Option.map _)]
  cases best <;> rfl

/-- The timers are those of the pending keys, in the same order. -/
theorem keys_timers (hd : d.Sound) : d.timers.keys = d.pending := by
  have hhandles : d.handles.toList = d.loop.live.map fun x => (x.1.key, x.2) := by
    refine Loop.eq_of_pairwise hd.increasing
      (List.pairwise_map.mpr (Loop.pairwise_live _)) fun x => ?_
    rw [List.mem_map]
    constructor
    · intro hx
      obtain ⟨call, hw, hkey⟩ := (hd.tied x.1 x.2).mp (Entries.get?_of_mem hd.nodup hx)
      exact ⟨(call, x.2), Loop.mem_live.mpr hw, Prod.ext hkey rfl⟩
    · rintro ⟨⟨call, handle⟩, hy, rfl⟩
      have hget := (hd.tied call.key handle).mpr ⟨call, Loop.mem_live.mp hy, rfl⟩
      obtain ⟨before, behind, hlist, -⟩ := List.lookup_eq_some_iff.mp hget
      rw [hlist]
      exact List.mem_append_right _ List.mem_cons_self
  rw [pending, Entries.keys, hhandles, Timers.keys, timers, List.map_map, List.map_map]
  rfl

/-- Without a loop to wait on, scheduling runs the key at once. -/
theorem step_schedule (h : Passive d.reactions) (key : String) :
    (d.step (.schedule key)).1 = d.doing (d.deedOfAction (.schedule key)) := by
  by_cases hclocked : d.clocked = true
  · exact step_eq_doing (by simp [undertake, hclocked])
  · have hcancel : Passive (d.cancel key).1.reactions := by rwa [reactions_cancel]
    refine Moment.finish_eq_of_leads (Moment.Leads.tick ?_)
    simp only [undertake, deedOfAction, if_neg hclocked]
    rw [Moment.tick_callback (hcancel.run key .atOnce).2]
    exact Moment.Leads.refl _

end Debouncer

/-! ### A session along with a debouncer -/

namespace Session

variable {s t : Session} {d e : Debouncer}

/-- What a deed of a debouncer is to a session: the timers are treated alike, and a run of a key is
the scheduled pass over that file. -/
def follow (s : Session) (d : Debouncer) (deed : Debouncer.Deed) : Session :=
  let s := { s with timers := s.timers.doing d.delay deed }
  (deed.run? d).elim s fun r => s.scheduledPass r.key

/-- The session and the debouncer, whose callbacks leave it alone, wait for the same. -/
structure WaitsAs (s : Session) (d : Debouncer) : Prop where
  sound : d.Sound
  passive : Debouncer.Passive d.reactions
  clocked : d.clocked = s.clocked
  delay : d.delay = s.config.delay
  timers : d.timers = s.timers

/-- The timers follow the deed; the pass leaves them alone. -/
theorem timers_follow (s : Session) (d : Debouncer) (deed : Debouncer.Deed) :
    (s.follow d deed).timers = s.timers.doing d.delay deed := by
  have hgone : ∀ key, (s.timers.cancel key).due? key = none := fun key => by
    rw [Timers.due?_cancel, if_pos rfl]
  cases deed with
  | flush key | runAtOnce key => exact timers_scheduledPass (hgone key)
  | fire call handle => exact timers_scheduledPass (hgone call.key)
  | _ => rfl

/-- **One deed** keeps the two together. -/
theorem WaitsAs.follow (h : s.WaitsAs d) {deed : Debouncer.Deed} (hdeed : d.Possible deed) :
    (s.follow d deed).WaitsAs (d.doing deed) := by
  have hframe : (s.follow d deed).clocked = s.clocked ∧ (s.follow d deed).config = s.config := by
    unfold Session.follow
    cases deed.run? d with
    | none => exact ⟨rfl, rfl⟩
    | some r =>
      have hpass := passes_scheduledPass { s with timers := s.timers.doing d.delay deed } r.key
      have hclocked := clocked_of_reaches hpass.unfolds.reaches
      have hconfig := config_of_reaches hpass.unfolds.reaches
      exact ⟨hclocked, hconfig⟩
  refine ⟨h.sound.doing hdeed, h.passive.doing deed, ?_, ?_, ?_⟩
  · rw [Debouncer.clocked_doing, hframe.1, h.clocked]
  · rw [Debouncer.delay_doing, hframe.2, h.delay]
  · rw [Debouncer.timers_doing h.sound.tied hdeed, timers_follow, h.timers]

/-- The session gets from `s` to `t` by the same deeds as the debouncer from `d` to `e`. -/
inductive Along : Session → Debouncer → Session → Debouncer → Prop
  | refl (s : Session) (d : Debouncer) : Along s d s d
  | deed {s t : Session} {d e : Debouncer} {deed : Debouncer.Deed} (hdeed : d.Possible deed)
      (rest : Along (s.follow d deed) (d.doing deed) t e) : Along s d t e

theorem Along.one {deed : Debouncer.Deed} (hdeed : d.Possible deed) :
    Along s d (s.follow d deed) (d.doing deed) :=
  .deed hdeed (.refl _ _)

theorem Along.trans {u : Session} {c : Debouncer} (h : Along s d t e) (h' : Along t e u c) :
    Along s d u c := by
  induction h with
  | refl => exact h'
  | deed hdeed _ ih => exact .deed hdeed (ih h')

/-- Deeds one after the other keep the two together. -/
theorem Along.waitsAs (h : Along s d t e) (hs : s.WaitsAs d) : t.WaitsAs e := by
  induction h with
  | refl => exact hs
  | deed hdeed _ ih => exact ih (hs.follow hdeed)

/-- The turn of a key in a flush. -/
theorem along_flushFile (h : s.WaitsAs d) (f : String) :
    Along s d (s.flushFile f) (d.flushKey f) := by
  have hpending : s.timers.isPending f = (d.handles.get? f).isSome := by
    rw [Timers.isPending_eq, Bool.eq_iff_iff, ← Timers.mem_keys_iff, ← h.timers,
      Debouncer.keys_timers h.sound, Debouncer.mem_pending_iff, Option.isSome_iff_exists]
  rw [flushFile, hpending]
  cases hget : d.handles.get? f with
  | none =>
    rw [Debouncer.flushKey_of_none hget]
    exact .refl s d
  | some handle =>
    rw [Debouncer.flushKey_of_get? hget]
    have hdeed : d.Possible (.flush f handle) := hget
    exact .one hdeed

theorem along_foldl_flushFile (h : s.WaitsAs d) (files : List String) :
    Along s d (files.foldl flushFile s) (files.foldl Debouncer.flushKey d) := by
  induction files generalizing s d with
  | nil => exact .refl s d
  | cons f files ih =>
    have hfirst := along_flushFile h f
    exact hfirst.trans (ih (hfirst.waitsAs h))

/-- The timers go off as the loop makes its calls, and there is fuel for all of them. -/
theorem along_passUntil {target : Int} (hfires : Debouncer.Fires target d e) (h : s.WaitsAs d)
    {fuel : Nat} (hfuel : s.timers.waiting.length ≤ fuel) :
    Along s d { passUntil target fuel s with
      timers := (passUntil target fuel s).timers.setClock target } e := by
  induction hfires generalizing s fuel with
  | @done d hnone =>
    have hnext : s.timers.next? target = none := by
      rw [← h.timers, Debouncer.next?_timers, hnone]
      rfl
    have hstays : passUntil target fuel s = s := by
      cases fuel with
      | zero => rfl
      | succ fuel => rw [passUntil, hnext]
    rw [hstays]
    have hdeed : d.Possible (.setClock target) := trivial
    exact .one hdeed
  | @fire d e call handle hcall rest ih =>
    have hnext : s.timers.next? target = some call.timer := by
      rw [← h.timers, Debouncer.next?_timers, hcall]
      rfl
    have hdeed : d.Possible (.fire call handle) := ⟨target, hcall⟩
    have hfewer := Timers.waiting_cancel_lt (Timers.mem_of_next? hnext).1
    have hleft : (s.follow d (.fire call handle)).timers.waiting.length + 1 ≤ fuel := by
      rw [timers_follow]
      exact Nat.le_trans hfewer hfuel
    obtain ⟨fuel, rfl⟩ : ∃ n, fuel = n + 1 := ⟨fuel - 1, by omega⟩
    rw [passUntil, hnext]
    exact .deed hdeed (ih (h.follow hdeed) (Nat.le_of_succ_le_succ hleft))

/-- What a session does when its timers are asked for something. -/
def ask (s : Session) : Action → Session
  | .schedule f => s.schedule f
  | .cancel f => { s with timers := s.timers.cancel f }
  | .flush (some f) => s.flushFile f
  | .flush none => s.flush
  | .dispose => { s with timers := s.timers.clear }
  | .advance ms => s.advance ms
  | .isPending _ | .fail => s

/-- **A session does what a debouncer does whose callbacks leave it alone**: it starts and gives up
the same waits, and passes over the files whose keys are run, in the same order and at the same
time. -/
theorem along_ask (h : s.WaitsAs d) (a : Action) : Along s d (s.ask a) (d.step a).1 := by
  have hidle : (d.undertake a).2 = [] → d.Possible (d.deedOfAction a) →
      Along s d (s.follow d (d.deedOfAction a)) (d.step a).1 := fun hnone hdeed => by
    rw [Debouncer.step_eq_doing hnone]
    exact .one hdeed
  cases a with
  | schedule f =>
    have hdeed := Debouncer.Moment.possible_deed ⟨d, [.callback [.schedule f]]⟩
    have hask : s.ask (.schedule f) = s.follow d (d.deedOfAction (.schedule f)) := by
      rw [ask, schedule, Debouncer.deedOfAction, h.clocked, ← h.delay]
      split_ifs <;> rfl
    rw [Debouncer.step_schedule h.passive, hask]
    exact .one hdeed
  | flush f =>
    rw [Debouncer.step_flush h.passive]
    cases f with
    | none =>
      rw [ask, flush, ← h.timers, Debouncer.keys_timers h.sound]
      exact along_foldl_flushFile h d.pending
    | some f => exact along_foldl_flushFile h [f]
  | advance ms =>
    have hnow : s.timers.now = d.loop.now := by rw [← h.timers]; rfl
    rw [ask, advance, hnow]
    exact along_passUntil (Debouncer.fires_step h.passive ms) h (Nat.le_refl _)
  | _ => exact hidle rfl trivial

/-- So the two stay together, whatever is asked of them. -/
theorem along_asks (h : s.WaitsAs d) (actions : List Action) :
    Along s d (actions.foldl ask s) (d.steps actions) ∧
      (actions.foldl ask s).WaitsAs (d.steps actions) := by
  induction actions generalizing s d with
  | nil => exact ⟨.refl s d, h⟩
  | cons a actions ih =>
    have hfirst := along_ask h a
    obtain ⟨hrest, hend⟩ := ih (hfirst.waitsAs h)
    exact ⟨hfirst.trans hrest, hend⟩

/-- A session that has not looked at its documents yet waits for nothing, like a new debouncer. -/
theorem waitsAs_new (config : Config) (clocked : Bool) (buffer : Buffer)
    (subscribers : List Subscriber) {reactions : Entries String (List (List Action))}
    (h : Debouncer.Passive reactions) :
    (blank config clocked buffer subscribers).WaitsAs
      (Debouncer.new config.debounceMs clocked reactions) :=
  ⟨Debouncer.sound_new _ clocked reactions, h, rfl, rfl, rfl⟩

end Session
end SymbolAtlas
