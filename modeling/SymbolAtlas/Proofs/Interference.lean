import SymbolAtlas.Proofs.Leftovers
import SymbolAtlas.Proofs.Recording

/-!
# Two runs that differ in other files

All files share the buffer, the timers, the graph with its indexes, the history with its counter and
the subscribers.  Yet leaving out of a run what was done with other files makes no difference to a
file (`Session.Fresh.same_without_others`).  The two runs go side by side: an operation that both
carry out does the same to the file (`Alike.step`), and one that is left out does nothing to it
(`Alike.skip`).
-/

namespace SymbolAtlas
namespace Session

/-! ### Operations that concern a file -/

/-- Whether an operation is one on the file `f`, or on no file in particular. -/
def Op.concerns (f : String) : Op → Bool
  | .openDocument g _ _ _ | .update g _ | .edit g _ _ _ | .close g | .uproot g | .flushFile g
  | .recompute g => g = f
  | .plant d => d.fileId = f
  | .publish n => n.fileId = f
  | .advance _ | .flush | .start | .setFault _ | .dispose _ => true

theorem Op.elapsed_of_not_concerns {f : String} {op : Op} (h : op.concerns f = false) :
    op.elapsed = 0 := by
  cases op with
  | advance ms => cases h
  | _ => rfl

theorem step_of_not_concerns {f : String} {op : Op} (h : op.concerns f = false) (now : Int)
    (x : FileState) : x.step f now op = x ∧ x.stepNotices f now op = [] := by
  cases op with
  | openDocument g | update g | edit g | uproot g | flushFile g | recompute g | plant d =>
    have hne := of_decide_eq_false h
    exact ⟨if_neg hne, by simp [FileState.stepNotices, hne]⟩
  | close g =>
    have hne := of_decide_eq_false h
    simp [FileState.step, FileState.stepNotices, hne]
  | publish n =>
    have hne : n.fileId ≠ f := of_decide_eq_false h
    exact ⟨FileState.receive_of_ne hne now x, if_neg hne⟩
  | advance ms | flush | start | setFault fault | dispose part => cases h

/-! ### Two runs side by side -/

/-- Two sessions that know the same about the file `f`, at the same time, and whose listeners have
heard the same about it. -/
structure Alike (f : String) (s t : Session) : Prop where
  left : s.Attended
  right : t.Attended
  subscribers : s.subscribers = t.subscribers
  now : s.timers.now = t.timers.now
  file : s.file f = t.file f
  heard : s.heardOf f = t.heardOf f

namespace Alike

variable {f : String} {s t : Session} {op : Op}

/-- An operation that both carry out. -/
theorem step (h : Alike f s t) (hop : op.disposes = false) :
    Alike f (s.step op).1 (t.step op).1 := by
  have hr := (follows_step s hop).reaches
  have hr' := (follows_step t hop).reaches
  refine ⟨h.left.reaches hr, h.right.reaches hr', ?_, ?_, ?_, ?_⟩
  · rw [subscribers_of_reaches hr, subscribers_of_reaches hr', h.subscribers]
  · rw [now_step h.left.toRegular hop, now_step h.right.toRegular hop, h.now]
  · rw [file_step h.left.toRegular hop, file_step h.right.toRegular hop, h.file, h.now]
  · rw [heardOf_step h.left hop, heardOf_step h.right hop, h.heard, h.file, h.now, hears, hears,
      listened, listened, h.subscribers]

/-- An operation on another file that only the first session carries out. -/
theorem skip (h : Alike f s t) (hop : op.disposes = false) (hf : op.concerns f = false) :
    Alike f (s.step op).1 t := by
  have hr := (follows_step s hop).reaches
  obtain ⟨hfile, hsaid⟩ := step_of_not_concerns hf s.timers.now (s.file f)
  refine ⟨h.left.reaches hr, h.right, (subscribers_of_reaches hr).trans h.subscribers, ?_, ?_, ?_⟩
  · rw [now_step h.left.toRegular hop, Op.elapsed_of_not_concerns hf, Int.add_zero, h.now]
  · rw [file_step h.left.toRegular hop, hfile, h.file]
  · rw [heardOf_step h.left hop, hsaid, hears_nil, List.append_nil, h.heard]

/-- Operations that do not concern a file can be left out. -/
theorem run (h : Alike f s t) {ops : List Op} (hops : ∀ op ∈ ops, op.disposes = false) :
    Alike f (s.run ops) (t.run (ops.filter (·.concerns f))) := by
  induction ops generalizing s t with
  | nil => exact h
  | cons op ops ih =>
    have hop := hops op (List.mem_cons_self ..)
    have hrest : ∀ op' ∈ ops, op'.disposes = false := fun op' hop' =>
      hops op' (List.mem_cons_of_mem op hop')
    cases hf : op.concerns f with
    | true =>
      rw [List.filter_cons_of_pos hf]
      exact ih (h.step hop) hrest
    | false =>
      rw [List.filter_cons_of_neg (by simp [hf])]
      exact ih (h.skip hop hf) hrest

end Alike

/-! ### Sessions from the beginning -/

theorem Fresh.attended {config : Config} {s : Session} (h : Fresh config s) : s.Attended := by
  refine ⟨h.regular, ?_⟩
  induction h with
  | new clocked documents =>
    have hstart : Op.start.disposes = false := rfl
    exact Or.inl (subscribers_of_reaches (follows_step (blank config clocked
      (.holding documents) [.indexer, .graph, .history]) hstart).reaches)
  | @listen s _ ih =>
    rcases ih with ih | ih
    · exact Or.inr (by simp [subscribe, Registry.register, ih])
    · exact Or.inr (by simp [subscribe, Registry.register, ih])

/-- Documents and subscribers are there once, and the events are in order. -/
theorem Fresh.tidy_ordered {config : Config} {s : Session} (h : Fresh config s) :
    s.Tidy ∧ s.history.Ordered := by
  induction h with
  | new clocked documents =>
    have hblank := tidy_blank config clocked documents
    exact ⟨(hblank.step .start).moves (.note _ _),
      (hblank.advances_step .start).ordered History.ordered_empty⟩
  | listen _ ih => exact ⟨ih.1.subscribe .listener, ih.2⟩

theorem Tidy.ordered_run {s : Session} (hs : s.Tidy) (ho : s.history.Ordered) (ops : List Op) :
    (s.run ops).history.Ordered := by
  induction ops generalizing s with
  | nil => exact ho
  | cons op ops ih => exact ih (hs.step op) ((hs.advances_step op).ordered ho)

/-- Nothing that is known of the file `f`, and nothing that the listener has heard of it, tells two
sessions apart, if the numbers of events are left out. -/
structure SameOf (f : String) (s t : Session) : Prop where
  document : s.buffer.get? f = t.buffer.get? f
  snapshot : s.snapshot? f = t.snapshot? f
  pending : s.timers.isPending f = t.timers.isPending f
  tracked : f ∈ s.index.tracked ↔ f ∈ t.index.tracked
  /-- The lineage, with the ids that are retired. -/
  lineage : s.index.lineages.get? f = t.index.lineages.get? f
  edges : s.graph.files.get? f = t.graph.files.get? f
  callers : ∀ x, IsIdOf f x → s.graph.callers x = t.graph.callers x
  callees : ∀ x, IsIdOf f x → s.graph.callees x = t.graph.callees x
  baseline : (s.history.ofFile f).baseline = (t.history.ofFile f).baseline
  events : (s.history.eventsOf f).map Event.plain = (t.history.eventsOf f).map Event.plain
  /-- The numbers are in the order of the events, in both sessions. -/
  numbers : ((s.history.eventsOf f).map Event.number).Pairwise (· < ·) ∧
    ((t.history.eventsOf f).map Event.number).Pairwise (· < ·)
  heard : s.heardOf f = t.heardOf f

theorem plain_events {h : History} (ho : h.Ordered) (f : String) :
    (h.eventsOf f).map Event.plain =
      ((h.eventsOf f).map fun e => (e.version, e.change)).map fun (v, c) => ⟨0, f, v, c⟩ := by
  rw [List.map_map]
  refine List.map_congr_left fun e he => ?_
  rw [← ho.filed f e he]
  rfl

theorem callers_eq {s t : Session} {f x : String} (hs : s.graph.Sound) (ht : t.graph.Sound)
    (h : s.graph.files.get? f = t.graph.files.get? f) (hx : IsIdOf f x) :
    s.graph.callers x = t.graph.callers x ∧ s.graph.callees x = t.graph.callees x := by
  have hedges : s.graph.edgesOf f = t.graph.edgesOf f := by
    rw [CallGraph.edgesOf, CallGraph.edgesOf, h]
  rw [hs.exact.callers, ht.exact.callers, hs.exact.callees, ht.exact.callees,
    hs.filter_edges (fun e => Or.inr rfl) hx, ht.filter_edges (fun e => Or.inr rfl) hx,
    hs.filter_edges (fun e => Or.inl rfl) hx, ht.filter_edges (fun e => Or.inl rfl) hx, hedges]
  exact ⟨rfl, rfl⟩

/-- What is alike cannot be told apart, in sessions that are reachable and keep their events in
order. -/
theorem Alike.sameOf {f : String} {s t : Session} (h : Alike f s t) (hs : s.Reachable)
    (ht : t.Reachable) (hos : s.history.Ordered) (hot : t.history.Ordered) : SameOf f s t := by
  have hedges : s.graph.files.get? f = t.graph.files.get? f := congrArg FileState.edges h.file
  have hdue : s.timers.due? f = t.timers.due? f := congrArg FileState.due h.file
  have htracked : decide (f ∈ s.index.tracked) = decide (f ∈ t.index.tracked) :=
    congrArg FileState.tracked h.file
  have hevents : (s.history.eventsOf f).map (fun e => (e.version, e.change)) =
      (t.history.eventsOf f).map fun e => (e.version, e.change) :=
    congrArg FileState.events h.file
  have hends := fun x hx => callers_eq (x := x) hs.identifies.graph ht.identifies.graph hedges hx
  exact
    { document := congrArg FileState.document h.file
      snapshot := congrArg FileState.snapshot h.file
      pending := by rw [Timers.isPending_eq, Timers.isPending_eq, hdue]
      tracked := decide_eq_decide.mp htracked
      lineage := congrArg FileState.lineage h.file
      edges := hedges
      callers := fun x hx => (hends x hx).1
      callees := fun x hx => (hends x hx).2
      baseline := congrArg FileState.baseline h.file
      events := by rw [plain_events hos, plain_events hot, hevents]
      numbers := ⟨hos.sorted f, hot.sorted f⟩
      heard := h.heard }

/-- **Files do not interfere.**  If all operations on other files are left out of a run, the file
ends in the same state, with the same events but for their numbers, which come in the same order,
and with the same notifications.  Nothing may be disposed of; whatever else is done, be it that
computations fail, it makes no difference. -/
theorem Fresh.same_without_others {config : Config} {s : Session} (hs : Fresh config s)
    {ops : List Op} (hops : ∀ op ∈ ops, op.disposes = false) (f : String) :
    SameOf f (s.run ops) (s.run (ops.filter (·.concerns f))) := by
  have halike : Alike f s s := ⟨hs.attended, hs.attended, rfl, rfl, rfl, rfl⟩
  obtain ⟨htidy, hordered⟩ := hs.tidy_ordered
  exact (halike.run hops).sameOf (hs.reachable.run _) (hs.reachable.run _)
    (htidy.ordered_run hordered _) (htidy.ordered_run hordered _)

/-- Two files are changed in turn, with the clock running, and one of them is closed. -/
def inTurn : List Op :=
  [.openDocument "a" "function f() { f(); }".toList "typescript" 1,
    .openDocument "a::f@1" "function f() { f(); }".toList "typescript" 1, .flush,
    .update "a::f@1" [], .recompute "a::f@1", .update "a" "function g() { g(); }".toList,
    .advance 300, .close "a::f@1", .update "a" "\nfunction g() {}".toList, .advance 300]

/-- The events of the first file are the second to the fourth of the one run and the first three of
the other; all else is the same. -/
theorem inTurn_same :
    let s := (new .default true (.holding [])).subscribe .listener
    (inTurn.filter (·.concerns "a")).length = 6 ∧
      ((s.run inTurn).history.eventsOf "a").map Event.number = [2, 3, 4] ∧
      ((s.run (inTurn.filter (·.concerns "a"))).history.eventsOf "a").map Event.number =
        [1, 2, 3] ∧
      ((s.run inTurn).heardOf "a").length = 12 ∧
      SameOf "a" (s.run inTurn) (s.run (inTurn.filter (·.concerns "a"))) := by
  have hs : Fresh .default ((new .default true (.holding [])).subscribe .listener) :=
    .listen (.new true [])
  refine ⟨by decide, by decide +kernel, by decide +kernel, by decide +kernel, ?_⟩
  exact hs.same_without_others (by decide) "a"

end Session
end SymbolAtlas
