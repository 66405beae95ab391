import Mathlib.Data.List.Basic
import Mathlib.Data.List.Induction
import SymbolAtlas.Hub.Hub

/-!
# Every event is delivered

The log of a hub tells who was registered at any time (`Hub.registry`) and what became of each
firing (`Hub.progress`).  Whatever subscribers do when they are called, a stretch of the log in
which nothing is left under way is closed (`Hub.Closed`): each event fired in it went to all those
and only those who listened at the time, and came to an end.  Closed stretches make up a closed
stretch (`Hub.Closed.append`), so this is carried from requests to conducts, calls and deliveries
(`Hub.Continues`), and by induction on the depth to events within events
(`Hub.tidy_fireWithin`).
-/

namespace SymbolAtlas

namespace Registry

variable {σ : Type} [DecidableEq σ] {subscribers : List σ}

/-- Registering twice is registering once. -/
theorem register_register (subscribers : List σ) (s : σ) :
    register (register subscribers s) s = register subscribers s := by
  by_cases h : s ∈ subscribers <;> simp [register, h]

theorem unregister_unregister (subscribers : List σ) (s : σ) :
    unregister (unregister subscribers s) s = unregister subscribers s := by
  simp [unregister, List.filter_filter]

/-- Who comes back comes last. -/
theorem register_unregister (subscribers : List σ) (s : σ) :
    register (unregister subscribers s) s = unregister subscribers s ++ [s] :=
  if_neg (by simp [unregister])

/-- Nobody gets registered twice. -/
theorem nodup_register (h : subscribers.Nodup) (s : σ) : (register subscribers s).Nodup := by
  rw [register]
  split_ifs with hs
  · exact h
  · refine List.nodup_append.mpr ⟨h, by simp, fun x hx y hy heq => hs ?_⟩
    rwa [← List.mem_singleton.mp hy, ← heq]

theorem nodup_unregister (h : subscribers.Nodup) (s : σ) : (unregister subscribers s).Nodup :=
  h.filter _

end Registry

namespace Hub

variable {α : Type}

/-! ### What the log tells -/

/-- Who is registered after what a note tells. -/
def Note.enter (registered : List String) : Note α → List String
  | .registered s => Registry.register registered s
  | .unregistered s => Registry.unregister registered s
  | _ => registered

/-- Who is registered after the calls that a log tells of. -/
def registry (log : List (Note α)) : List String := log.foldl Note.enter []

/-- Whether a note is about a call on account of a firing, or about its end. -/
def Note.marks (firing : Nat) : Note α → Bool
  | .called i _ _ _ | .ended i => i = firing
  | _ => false

/-- The calls on account of a firing and its end, as the log has them. -/
def progress (firing : Nat) (log : List (Note α)) : List (Note α) := log.filter (·.marks firing)

/-- The calls to those who are registered and listen to a topic, in the order of registration. -/
def calls (listener? : String → Topic → Option (Listener α)) (registered : List String)
    (firing : Nat) (topic : Topic) (argument : α) : List (Note α) :=
  registered.filterMap fun s =>
    (listener? s topic).map fun l => .called firing s topic (l.taken argument)

/-- The registry follows from the log. -/
theorem registry_append (log new : List (Note α)) :
    registry (log ++ new) = new.foldl Note.enter (registry log) :=
  List.foldl_append

/-- Nobody is registered twice. -/
theorem nodup_registry (log : List (Note α)) : (registry log).Nodup := by
  induction log using List.reverseRecOn with
  | nil => exact List.nodup_nil
  | append_singleton log n ih =>
    have hlog : registry (log ++ [n]) = n.enter (registry log) := registry_append log [n]
    rw [hlog]
    cases n with
    | registered s => exact Registry.nodup_register ih s
    | unregistered s => exact Registry.nodup_unregister ih s
    | _ => exact ih

@[simp] theorem firingCount_append (log new : List (Note α)) :
    firingCount (log ++ new) = firingCount log + firingCount new :=
  List.countP_append

@[simp] theorem progress_append (firing : Nat) (log new : List (Note α)) :
    progress firing (log ++ new) = progress firing log ++ progress firing new :=
  List.filter_append ..

/-- A firing that is not marked makes no progress. -/
theorem progress_eq_nil {firing : Nat} {log : List (Note α)}
    (h : ∀ n ∈ log, n.marks firing = false) : progress firing log = [] :=
  List.filter_eq_nil_iff.mpr fun n hn => by simp [h n hn]

/-! ### Stretches of the log -/

/-- A stretch of the log that goes on from `log` and leaves nothing open but, maybe, the firing
`owner` that was under way before. -/
structure Closed (listener? : String → Topic → Option (Listener α)) (owner : Option Nat)
    (log new : List (Note α)) : Prop where
  fresh : ∀ n ∈ new, ∀ i, n.marks i = true → owner = some i ∨ firingCount log ≤ i
  begun : ∀ n ∈ new, ∀ i, n.marks i = true → i < firingCount (log ++ new)
  complete : ∀ before topic argument after, new = before ++ .fired topic argument :: after →
    let firing := firingCount (log ++ before)
    progress firing before = [] ∧
      progress firing after =
        calls listener? (registry (log ++ before)) firing topic argument ++ [.ended firing]

/-- Where in two lists put together an element stands. -/
theorem append_eq_append_cons {β : Type} {xs ys before after : List β} {b : β}
    (h : xs ++ ys = before ++ b :: after) :
    (∃ rest, xs = before ++ b :: rest ∧ after = rest ++ ys) ∨
      ∃ rest, before = xs ++ rest ∧ ys = rest ++ b :: after := by
  rcases List.append_eq_append_iff.mp h with ⟨rest, hbefore, hys⟩ | ⟨rest, hxs, hafter⟩
  · exact Or.inr ⟨rest, hbefore, hys⟩
  · cases rest with
    | nil => exact Or.inr ⟨[], by simpa using hxs.symm, by simpa using hafter.symm⟩
    | cons c rest =>
      obtain ⟨rfl, htail⟩ := List.cons.inj hafter
      exact Or.inl ⟨rest, hxs, htail⟩

section Closed

variable {listener? : String → Topic → Option (Listener α)} {owner : Option Nat}
  {log new new' : List (Note α)}

theorem closed_nil : Closed listener? owner log [] where
  fresh _ hn := by cases hn
  begun _ hn := by cases hn
  complete before topic argument after hnew := by simp at hnew

/-- A note leaves nothing open if it is about the firing under way, or about none. -/
theorem closed_note {n : Note α} (hfired : n.isFiring = false)
    (hmarks : ∀ i, n.marks i = true → owner = some i ∧ i < firingCount log) :
    Closed listener? owner log [n] where
  fresh m hm i hi := by
    rw [List.mem_singleton.mp hm] at hi
    exact Or.inl (hmarks i hi).1
  begun m hm i hi := by
    rw [List.mem_singleton.mp hm] at hi
    rw [firingCount_append]
    exact Nat.lt_add_right _ (hmarks i hi).2
  complete before topic argument after hnew := by
    have hmem : Note.fired topic argument ∈ [n] := hnew ▸ by simp
    rw [← List.mem_singleton.mp hmem] at hfired
    cases hfired

/-- What belongs to no firing may stand within one. -/
theorem Closed.weaken (h : Closed listener? none log new) (owner : Option Nat) :
    Closed listener? owner log new where
  fresh n hn i hi := Or.inr ((h.fresh n hn i hi).resolve_left (by simp))
  begun := h.begun
  complete := h.complete

/-- What happens later does not concern a firing that has been closed. -/
theorem Closed.progress_eq_nil (h : Closed listener? owner log new) {i : Nat}
    (hi : i < firingCount log) (howner : owner ≠ some i) : progress i new = [] := by
  refine Hub.progress_eq_nil fun n hn => Bool.eq_false_iff.mpr fun hmarks => ?_
  rcases h.fresh n hn i hmarks with heq | hle
  · exact howner heq
  · omega

/-- **Closed stretches make up a closed stretch.** -/
theorem Closed.append (h : Closed listener? owner log new)
    (h' : Closed listener? owner (log ++ new) new')
    (howner : ∀ i, owner = some i → i < firingCount log) :
    Closed listener? owner log (new ++ new') where
  fresh n hn i hi := by
    rcases List.mem_append.mp hn with hn | hn
    · exact h.fresh n hn i hi
    · refine (h'.fresh n hn i hi).imp_right fun hle => ?_
      rw [firingCount_append] at hle
      omega
  begun n hn i hi := by
    rw [← List.append_assoc, firingCount_append]
    rcases List.mem_append.mp hn with hn | hn
    · exact Nat.lt_add_right _ (h.begun n hn i hi)
    · have := h'.begun n hn i hi
      rwa [firingCount_append] at this
  complete before topic argument after hnew := by
    rcases append_eq_append_cons hnew with ⟨rest, rfl, rfl⟩ | ⟨rest, rfl, hnew'⟩
    · -- the event was fired in the first stretch, and the second one has nothing to do with it
      obtain ⟨hbefore, hafter⟩ := h.complete before topic argument rest rfl
      refine ⟨hbefore, ?_⟩
      have hlater : progress (firingCount (log ++ before)) new' = [] := by
        refine h'.progress_eq_nil ?_ fun heq => ?_
        · simp [firingCount, Note.isFiring]
        · have := howner _ heq
          simp only [firingCount_append] at this
          omega
      rw [progress_append, hafter, hlater, List.append_nil]
    · obtain ⟨hbefore, hafter⟩ := h'.complete rest topic argument after hnew'
      rw [List.append_assoc] at hbefore hafter
      refine ⟨?_, hafter⟩
      have hearlier : progress (firingCount (log ++ (new ++ rest))) new = [] := by
        refine Hub.progress_eq_nil fun n hn => Bool.eq_false_iff.mpr fun hmarks => ?_
        have := h.begun n hn _ hmarks
        rw [← List.append_assoc, firingCount_append] at this
        omega
      rw [progress_append, hearlier, hbefore, List.nil_append]

/-- **An event that is delivered is closed**: it was made all the calls it owed, then it ended, and
what went on meanwhile is closed as well. -/
theorem Closed.fired {topic : Topic} {argument : α}
    (h : Closed listener? (some (firingCount log)) (log ++ [.fired topic argument]) new)
    (hcalls : progress (firingCount log) new =
      calls listener? (registry log) (firingCount log) topic argument ++
        [.ended (firingCount log)]) :
    Closed listener? none log (.fired topic argument :: new) where
  fresh n hn i hi := by
    right
    rcases List.mem_cons.mp hn with rfl | hn
    · cases hi
    · rcases h.fresh n hn i hi with heq | hle
      · exact Nat.le_of_eq (Option.some.inj heq)
      · rw [firingCount_append] at hle
        omega
  begun n hn i hi := by
    rw [List.append_cons]
    rcases List.mem_cons.mp hn with rfl | hn
    · cases hi
    · exact h.begun n hn i hi
  complete before topic' argument' after hnew := by
    cases before with
    | nil =>
      obtain ⟨hhead, rfl⟩ := List.cons.inj hnew
      cases hhead
      rw [List.append_nil]
      exact ⟨rfl, hcalls⟩
    | cons n before =>
      obtain ⟨rfl, htail⟩ := List.cons.inj hnew
      have hlater := h.complete before topic' argument' after htail
      rw [← List.append_cons] at hlater
      exact hlater

end Closed

/-! ### What subscribers do -/

/-- The log tells who is registered. -/
def Faithful (h : Hub α) : Prop := h.registered = registry h.log

/-- A note about something else leaves the registry faithful. -/
theorem Faithful.note {h : Hub α} (hf : h.Faithful) {n : Note α}
    (hn : n.enter h.registered = h.registered) : (h.note n).Faithful := by
  have hlog : registry (h.log ++ [n]) = n.enter (registry h.log) := registry_append h.log [n]
  rw [← hf, hn] at hlog
  exact hlog.symm

/-- One hub comes from another by a closed stretch of the log, in which the firing `owner` that was
under way before makes progress as told by `own`. -/
structure Continues (owner : Option Nat) (own : List (Note α)) (h h' : Hub α) : Prop where
  listener : h'.listener? = h.listener?
  faithful : h'.Faithful
  log : ∃ new, h'.log = h.log ++ new ∧ Closed h.listener? owner h.log new ∧
    ∀ i, owner = some i → progress i new = own

section Continues

variable {h h' h'' : Hub α} {owner : Option Nat} {own own' : List (Note α)}

theorem Continues.refl (hf : h.Faithful) (owner : Option Nat) : Continues owner [] h h :=
  ⟨rfl, hf, [], by simp, closed_nil, fun _ _ => rfl⟩

/-- Firings are counted upwards. -/
theorem Continues.firingCount_le (hc : Continues owner own h h') :
    firingCount h.log ≤ firingCount h'.log := by
  obtain ⟨new, hnew, -⟩ := hc.log
  rw [hnew, firingCount_append]
  omega

/-- One course after the other, within the same firing. -/
theorem Continues.trans (hc : Continues owner own h h') (hc' : Continues owner own' h' h'')
    (howner : ∀ i, owner = some i → i < firingCount h.log) :
    Continues owner (own ++ own') h h'' := by
  obtain ⟨new, hnew, hclosed, hown⟩ := hc.log
  obtain ⟨new', hnew', hclosed', hown'⟩ := hc'.log
  refine ⟨hc'.listener.trans hc.listener, hc'.faithful, new ++ new', ?_, ?_, fun i hi => ?_⟩
  · rw [hnew', hnew, List.append_assoc]
  · rw [hc.listener, hnew] at hclosed'
    exact hclosed.append hclosed' howner
  · rw [progress_append, hown i hi, hown' i hi]

/-- What goes on without a firing makes no progress with it. -/
theorem Continues.meanwhile (hc : Continues none [] h h') {i : Nat} (hi : i < firingCount h.log) :
    Continues (some i) [] h h' := by
  obtain ⟨new, hnew, hclosed, -⟩ := hc.log
  refine ⟨hc.listener, hc.faithful, new, hnew, hclosed.weaken _, fun j hj => ?_⟩
  cases hj
  exact hclosed.progress_eq_nil hi (by simp)

/-- Something is noted, and the registry follows. -/
theorem Continues.entered (hf : h.Faithful) {n : Note α} (hfired : n.isFiring = false)
    (hmarks : ∀ i, n.marks i = true → owner = some i ∧ i < firingCount h.log)
    (hown : ∀ i, owner = some i → progress i [n] = own) :
    Continues owner own h
      { h with registered := n.enter h.registered, log := h.log ++ [n] } := by
  refine ⟨rfl, ?_, [n], rfl, closed_note hfired hmarks, hown⟩
  rw [Faithful, registry_append, ← hf]
  rfl

/-- A note that is not about any firing. -/
theorem Continues.note (hf : h.Faithful) {n : Note α} (hfired : n.isFiring = false)
    (hmarks : ∀ i, n.marks i = false) (owner : Option Nat) :
    Continues owner [] h { h with registered := n.enter h.registered, log := h.log ++ [n] } :=
  Continues.entered hf hfired (fun i hi => by simp [hmarks i] at hi)
    fun i _ => progress_eq_nil fun m hm => by rw [List.mem_singleton.mp hm, hmarks]

/-- A note about the firing under way. -/
theorem Continues.mark (hf : h.Faithful) {n : Note α} {i : Nat} (hi : i < firingCount h.log)
    (hfired : n.isFiring = false) (hmarks : ∀ j, n.marks j = decide (i = j)) :
    Continues (some i) [n] h
      { h with registered := n.enter h.registered, log := h.log ++ [n] } := by
  refine Continues.entered hf hfired (fun j hj => ?_) fun j hj => ?_
  · rw [hmarks, decide_eq_true_iff] at hj
    exact ⟨congrArg some hj, hj ▸ hi⟩
  · cases hj
    simp [progress, hmarks]

end Continues

/-- A way to do something that leaves nothing open. -/
def Tidy {β : Type} (act : β → Hub α → Hub α × Outcome) : Prop :=
  ∀ x h, Faithful h → Continues none [] h (act x h).1

/-- Requests are tidy if firings are. -/
theorem tidy_perform {fire : Topic → α → Hub α → Hub α × Outcome}
    (hfire : ∀ topic, Tidy (fire topic)) : Tidy (perform fire) := by
  intro r h hf
  cases r with
  | register s => exact Continues.note (n := .registered s) hf rfl (fun _ => rfl) none
  | unregister s => exact Continues.note (n := .unregistered s) hf rfl (fun _ => rfl) none
  | fire topic argument => exact hfire topic argument h hf

/-- So are reactions. -/
theorem tidy_carryOut {perform : Request α → Hub α → Hub α × Outcome} (hperform : Tidy perform) :
    Tidy (carryOut perform) := by
  intro conduct
  induction conduct with
  | returns => exact fun h hf => Continues.refl hf none
  | fails => exact fun h hf => Continues.refl hf none
  | asks request next ih =>
    intro h hf
    have hfirst := hperform request h hf
    have hrest := ih (perform request h).2 (perform request h).1.log _ hfirst.faithful
    exact hfirst.trans hrest (by simp)

/-- A subscriber that listens is called once, whatever it does then and even if it fails. -/
theorem continues_call {perform : Request α → Hub α → Hub α × Outcome} (hperform : Tidy perform)
    {h : Hub α} (hf : h.Faithful) {firing : Nat} (hi : firing < firingCount h.log) (topic : Topic)
    (argument : α) (s : String) :
    Continues (some firing) (calls h.listener? [s] firing topic argument) h
      (call perform firing topic argument h s) := by
  cases hl : h.listener? s topic with
  | none =>
    have hskip : call perform firing topic argument h s = h := by simp [call, hl]
    simpa [calls, hl, hskip] using Continues.refl hf (some firing)
  | some l =>
    have hcalled := Continues.mark (n := .called firing s topic (l.taken argument)) hf hi rfl
      fun _ => rfl
    have hconduct := tidy_carryOut hperform
      (l.conduct (l.taken argument) (h.log ++ [.called firing s topic (l.taken argument)])) _
      hcalled.faithful
    have howner : ∀ i, some firing = some i → i < firingCount h.log := by
      rintro i ⟨⟩
      exact hi
    have hdone := hcalled.trans
      (hconduct.meanwhile (Nat.lt_of_lt_of_le hi hcalled.firingCount_le)) howner
    simp only [calls, hl, List.filterMap_cons, List.filterMap_nil, Option.map_some, call]
    split
    · exact hdone
    · exact hdone.trans
        (Continues.note (n := .failed firing s) hconduct.faithful rfl (fun _ => rfl) _) howner

/-- **A delivery makes all its calls, one after the other.** -/
theorem continues_calls {perform : Request α → Hub α → Hub α × Outcome} (hperform : Tidy perform)
    {firing : Nat} (topic : Topic) (argument : α) (names : List String) {h : Hub α}
    (hf : h.Faithful) (hi : firing < firingCount h.log) :
    Continues (some firing) (calls h.listener? names firing topic argument) h
      (names.foldl (call perform firing topic argument) h) := by
  induction names generalizing h with
  | nil => exact Continues.refl hf _
  | cons s names ih =>
    have hfirst := continues_call hperform hf hi topic argument s
    have hrest := ih hfirst.faithful (Nat.lt_of_lt_of_le hi hfirst.firingCount_le)
    have hall := hfirst.trans hrest (by
      rintro i ⟨⟩
      exact hi)
    rw [hfirst.listener, calls, calls, ← List.filterMap_append] at hall
    exact hall

/-- Those who do not listen are not called. -/
theorem calls_listeners (h : Hub α) (firing : Nat) (topic : Topic) (argument : α) :
    calls h.listener? (h.listeners topic) firing topic argument =
      calls h.listener? h.registered firing topic argument := by
  rw [calls, listeners, List.filterMap_filter]
  refine List.filterMap_congr fun s _ => ?_
  rw [listens]
  cases h.listener? s topic <;> rfl

theorem firingCount_fired (log : List (Note α)) (topic : Topic) (argument : α) :
    firingCount (log ++ [.fired topic argument]) = firingCount log + 1 := by
  simp [firingCount, Note.isFiring]

/-- From the moment it is fired, an event makes the calls it owes and then ends. -/
theorem continues_delivery {depth : Nat} (hfire : ∀ topic, Tidy (fireWithin (α := α) depth topic))
    {h : Hub α} (hf : h.Faithful) (topic : Topic) (argument : α) :
    Continues (some (firingCount h.log))
      (calls h.listener? h.registered (firingCount h.log) topic argument ++
        [.ended (firingCount h.log)])
      (h.note (.fired topic argument)) (fireWithin (depth + 1) topic argument h).1 := by
  have hfired : (h.note (.fired topic argument)).Faithful := hf.note rfl
  have hi : firingCount h.log < firingCount (h.note (.fired topic argument)).log :=
    Nat.lt_of_lt_of_eq (Nat.lt_succ_self _) (firingCount_fired ..).symm
  have hcalls := continues_calls (tidy_perform hfire) topic argument (h.listeners topic) hfired hi
  have hended := Continues.mark (n := .ended (firingCount h.log)) hcalls.faithful
    (Nat.lt_of_lt_of_le hi hcalls.firingCount_le) rfl fun _ => rfl
  have hall := hcalls.trans hended (by
    rintro i ⟨⟩
    exact hi)
  rw [← calls_listeners]
  exact hall

/-- **Events are delivered in full, however deep they are nested.** -/
theorem tidy_fireWithin (depth : Nat) (topic : Topic) :
    Tidy (fireWithin (α := α) depth topic) := by
  induction depth generalizing topic with
  | zero =>
    intro argument h hf
    exact Continues.note (n := .refused topic argument) hf rfl (fun _ => rfl) none
  | succ depth ih =>
    intro argument h hf
    have hall := continues_delivery ih hf topic argument
    obtain ⟨new, hnew, hclosed, hprogress⟩ := hall.log
    refine ⟨hall.listener, hall.faithful, .fired topic argument :: new, ?_,
      hclosed.fired ?_, by simp⟩
    · rw [List.append_cons]
      exact hnew
    · rw [hprogress _ rfl, ← hf]
      rfl

/-- Does what is requested from outside, one request after the other. -/
def requests (limit : Nat) (rs : List (Request α)) (h : Hub α) : Hub α :=
  rs.foldl (fun h r => (h.request limit r).1) h

/-- **Every request is tidy.** -/
theorem tidy_request (limit : Nat) :
    Tidy (fun r (h : Hub α) => h.request limit r) :=
  tidy_perform (tidy_fireWithin (limit + 1))

/-- So requests continue the log one after the other. -/
theorem continues_requests (limit : Nat) (rs : List (Request α)) {h : Hub α} (hf : h.Faithful) :
    Continues none [] h (requests limit rs h) := by
  induction rs generalizing h with
  | nil => exact Continues.refl hf none
  | cons r rs ih =>
    have hfirst := tidy_request limit r h hf
    exact hfirst.trans (ih hfirst.faithful) (by simp)

/-! ### The limit of the nesting -/

/-- No event was kept from being fired. -/
def Unrefused (h : Hub α) : Prop := ∀ topic argument, Note.refused topic argument ∉ h.log

/-- What is not refused in the end was not refused before. -/
theorem Continues.unrefused {owner : Option Nat} {own : List (Note α)} {h h' : Hub α}
    (hc : Continues owner own h h') (hh : h'.Unrefused) : h.Unrefused := by
  obtain ⟨new, hnew, -⟩ := hc.log
  intro topic argument hmem
  refine hh topic argument ?_
  rw [hnew]
  exact List.mem_append_left _ hmem

/-- Two ways to do something that come to the same unless the first one has an event refused. -/
def Agrees {β : Type} (act act' : β → Hub α → Hub α × Outcome) : Prop :=
  ∀ x h, Faithful h → Unrefused (act x h).1 → act' x h = act x h

/-- Requests agree if firings do. -/
theorem agrees_perform {fire fire' : Topic → α → Hub α → Hub α × Outcome}
    (hfire : ∀ topic, Agrees (fire topic) (fire' topic)) :
    Agrees (perform fire) (perform fire') := by
  intro r h hf hh
  cases r with
  | register s => rfl
  | unregister s => rfl
  | fire topic argument => exact hfire topic argument h hf hh

section Agrees

variable {perform perform' : Request α → Hub α → Hub α × Outcome}

/-- So do reactions. -/
theorem agrees_carryOut (hperform : Tidy perform) (hagree : Agrees perform perform') :
    Agrees (carryOut perform) (carryOut perform') := by
  intro conduct
  induction conduct with
  | returns => exact fun h _ _ => rfl
  | fails => exact fun h _ _ => rfl
  | asks request next ih =>
    intro h hf hh
    have hfirst := hperform request h hf
    have hrest := tidy_carryOut hperform
      (next (perform request h).2 (perform request h).1.log) _ hfirst.faithful
    have hsame := hagree request h hf (hrest.unrefused hh)
    rw [carryOut, hsame]
    exact ih _ _ _ hfirst.faithful hh

/-- And so does a call. -/
theorem call_eq_of_agrees (hperform : Tidy perform) (hagree : Agrees perform perform') {h : Hub α}
    (hf : h.Faithful) {firing : Nat} {topic : Topic} {argument : α} {s : String}
    (hh : (call perform firing topic argument h s).Unrefused) :
    call perform' firing topic argument h s = call perform firing topic argument h s := by
  cases hl : h.listener? s topic with
  | none => simp [call, hl]
  | some l =>
    have hnoted := hf.note (n := .called firing s topic (l.taken argument)) rfl
    have hsame := agrees_carryOut hperform hagree
      (l.conduct (l.taken argument) (h.note (.called firing s topic (l.taken argument))).log) _
      hnoted
    simp only [call, hl] at hh ⊢
    rw [hsame ?_]
    revert hh
    split
    · exact id
    · intro hh topic argument hmem
      exact hh topic argument (List.mem_append_left _ hmem)

/-- And all calls of a firing. -/
theorem calls_eq_of_agrees (hperform : Tidy perform) (hagree : Agrees perform perform')
    {firing : Nat} {topic : Topic} {argument : α} (names : List String) {h : Hub α}
    (hf : h.Faithful) (hi : firing < firingCount h.log)
    (hh : (names.foldl (call perform firing topic argument) h).Unrefused) :
    names.foldl (call perform' firing topic argument) h =
      names.foldl (call perform firing topic argument) h := by
  induction names generalizing h with
  | nil => rfl
  | cons s names ih =>
    have hfirst := continues_call hperform hf hi topic argument s
    have hi' := Nat.lt_of_lt_of_le hi hfirst.firingCount_le
    have hrest := continues_calls hperform topic argument names hfirst.faithful hi'
    rw [List.foldl_cons, List.foldl_cons,
      call_eq_of_agrees hperform hagree hf (hrest.unrefused hh)]
    exact ih hfirst.faithful hi' hh

end Agrees

/-- More depth makes no difference where nothing was refused. -/
theorem agrees_fireWithin (depth more : Nat) (topic : Topic) :
    Agrees (fireWithin depth topic : α → Hub α → Hub α × Outcome)
      (fireWithin (depth + more) topic) := by
  induction depth generalizing topic with
  | zero =>
    intro argument h hf hh
    exact absurd (List.mem_append_right _ List.mem_cons_self) (hh topic argument)
  | succ depth ih =>
    intro argument h hf hh
    have hfired : (h.note (.fired topic argument)).Faithful := hf.note rfl
    have hi : firingCount h.log < firingCount (h.note (.fired topic argument)).log :=
      Nat.lt_of_lt_of_eq (Nat.lt_succ_self _) (firingCount_fired ..).symm
    have hbefore : ((h.listeners topic).foldl
        (call (perform (fireWithin depth)) (firingCount h.log) topic argument)
        (h.note (.fired topic argument))).Unrefused := fun topic argument hmem =>
      hh topic argument (List.mem_append_left _ hmem)
    have hlisteners : ∀ call, Registry.deliver (h.listens topic) call h.registered
        (h.note (.fired topic argument)) =
          (h.listeners topic).foldl call (h.note (.fired topic argument)) := fun _ => rfl
    rw [Nat.succ_add]
    simp only [fireWithin, hlisteners]
    rw [calls_eq_of_agrees (tidy_perform (tidy_fireWithin depth)) (agrees_perform ih) _ hfired hi
      hbefore]

/-- Where no event is nested too deep, it does not matter what depth is allowed. -/
theorem requests_eq_of_unrefused {limit : Nat} {rs : List (Request α)} {h : Hub α}
    (hf : h.Faithful) (hh : (requests limit rs h).Unrefused) (more : Nat) :
    requests (limit + more) rs h = requests limit rs h := by
  induction rs generalizing h with
  | nil => rfl
  | cons r rs ih =>
    have hfirst := tidy_request limit r h hf
    have hagree : Agrees (perform (fireWithin (limit + 1)) : _ → Hub α → _)
        (perform (fireWithin (limit + 1 + more))) :=
      agrees_perform fun topic => agrees_fireWithin (limit + 1) more topic
    have hsame := hagree r h hf ((continues_requests limit rs hfirst.faithful).unrefused hh)
    have hstep : h.request (limit + more) r = h.request limit r := by
      rw [request, request, Nat.add_right_comm]
      exact hsame
    rw [requests, requests, List.foldl_cons, List.foldl_cons, hstep]
    exact ih hfirst.faithful hh

/-- **Delivery is isolated and complete**, whoever listens to what and whatever the subscribers do
when they are called, and after any requests to the hub.  The registry is what the calls to register
and unregister make of it: nobody is listed twice, registering twice is registering once, and who
comes back comes last.  Nothing raises to the publisher, from outside or from within a delivery.
Each event in the log was fired from outside or by some subscriber at any depth; on its account
those who listened and were registered at the time it was fired were called, and nobody else, once
each and in the order of registration, with the argument of that event if they take one, and then
it ended.  How deep events may be nested makes no difference unless one of them is refused. -/
theorem every_event_delivered (listener? : String → Topic → Option (Listener α)) (limit : Nat)
    (rs : List (Request α)) :
    let h := requests limit rs (new listener?)
    (h.registered = registry h.log ∧ ∀ s,
        ((h.register s).register s).registered = (h.register s).registered ∧
        ((h.unregister s).unregister s).registered = (h.unregister s).registered ∧
        ((h.unregister s).register s).registered = h.registered.filter (· ≠ s) ++ [s]) ∧
      (∀ r, (h.request limit r).2 = .returned) ∧
      (∀ depth topic argument (h' : Hub α),
        (fireWithin (depth + 1) topic argument h').2 = .returned) ∧
      (∀ topic argument, ∃ after, (h.request limit (.fire topic argument)).1.log =
        h.log ++ .fired topic argument :: after) ∧
      (∀ before topic argument after, h.log = before ++ .fired topic argument :: after →
        let firing := firingCount before
        (registry before).Nodup ∧ progress firing before = [] ∧
          progress firing after =
            calls listener? (registry before) firing topic argument ++ [.ended firing]) ∧
      ((∀ topic argument, .refused topic argument ∉ h.log) →
        ∀ more, requests (limit + more) rs (new listener?) = h) := by
  intro h
  have hnew : (new listener?).Faithful := rfl
  have hall : Continues none [] (new listener?) h := continues_requests limit rs hnew
  obtain ⟨log, hlog, hclosed, -⟩ := hall.log
  refine ⟨⟨hall.faithful, fun s => ⟨?_, ?_, ?_⟩⟩, fun r => ?_, fun _ _ _ _ => rfl,
    fun topic argument => ?_, fun before topic argument after hsplit => ?_,
    requests_eq_of_unrefused hnew⟩
  · exact Registry.register_register h.registered s
  · exact Registry.unregister_unregister h.registered s
  · exact Registry.register_unregister h.registered s
  · cases r <;> rfl
  · have hdelivery :=
      continues_delivery (tidy_fireWithin limit) hall.faithful topic argument
    obtain ⟨after, hafter, -⟩ := hdelivery.log
    exact ⟨after, by rw [List.append_cons]; exact hafter⟩
  · rw [hlog] at hsplit
    obtain ⟨hbefore, hafter⟩ := hclosed.complete before topic argument after hsplit
    exact ⟨nodup_registry before, hbefore, hafter⟩

/-- While an event is delivered, the first subscriber leaves, brings in a third one and fires
another event, and the second one fails. -/
example :
    let busy : Conduct Nat := .asks (.unregister "a") fun _ _ => .asks (.register "c") fun _ _ =>
      .asks (.fire .graphUpdated 7) fun _ _ => .returns
    let listener? (s : String) (topic : Topic) : Option (Listener Nat) :=
      if s = "b" then some ⟨true, fun _ _ => .fails⟩
      else if topic = .graphUpdated then some ⟨false, fun _ _ => .returns⟩
      else some ⟨true, fun _ _ => busy⟩
    (requests 1 [.register "a", .register "b", .fire .documentAdded 3] (new listener?)).log =
      [.registered "a", .registered "b", .fired .documentAdded 3,
        .called 0 "a" .documentAdded (some 3), .unregistered "a", .registered "c",
        .fired .graphUpdated 7, .called 1 "b" .graphUpdated (some 7), .failed 1 "b",
        .called 1 "c" .graphUpdated none, .ended 1,
        .called 0 "b" .documentAdded (some 3), .failed 0 "b", .ended 0] := by
  decide

end Hub
end SymbolAtlas
