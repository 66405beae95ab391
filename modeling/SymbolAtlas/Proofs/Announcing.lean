import Mathlib.Order.Defs.Unbundled
import SymbolAtlas.Proofs.Passing

/-!
# While a snapshot is announced

What subscribers do about a new snapshot concerns the graph, the history and what the listener has
heard; everything else stays aside (`Session.Aside`), so whoever is called on the way finds the
documents, the timers and the snapshots as they were when the announcement began.  Each subscriber
that cares for snapshots is called about this one once (`news_announceSnapshotCalls`).
-/

namespace SymbolAtlas

/-- Whether somebody is told in a call that a file has a new snapshot. -/
def Call.isNews (f : String) (who : Subscriber) (call : Call) : Bool :=
  decide (call.who = who ∧ call.notice = .snapshotUpdated f)

/-- The calls in which somebody is told that a file has a new snapshot. -/
def newsOf (f : String) (who : Subscriber) (cs : List Call) : List Call :=
  cs.filter (·.isNews f who)

theorem newsOf_append (f : String) (who : Subscriber) (cs ds : List Call) :
    newsOf f who (cs ++ ds) = newsOf f who cs ++ newsOf f who ds := List.filter_append ..

/-- Other notices are no news. -/
theorem newsOf_eq_nil {f : String} {cs : List Call}
    (h : ∀ call ∈ cs, call.notice ≠ .snapshotUpdated f) (who : Subscriber) :
    newsOf f who cs = [] := by
  rw [newsOf, List.filter_eq_nil_iff]
  exact fun call hcall => by simp [Call.isNews, h call hcall]

namespace Session

/-- From `s` to `t`, and at every call on the way, a session keeps something of what it was, and the
calls are about certain things only. -/
structure Throughout (R : Session → Session → Prop) (P : Notice → Prop) (s : Session)
    (cs : List Call) (t : Session) : Prop where
  last : R s t
  calls : ∀ call ∈ cs, R s call.session ∧ P call.notice

namespace Throughout

variable {R : Session → Session → Prop} [IsPreorder Session R] {P : Notice → Prop}
  {s t u : Session} {cs ds : List Call}

omit [IsPreorder Session R] in
theorem silent (h : R s t) : Throughout R P s [] t := ⟨h, by simp⟩

theorem refl (s : Session) : Throughout R P s [] s := silent (refl_of R s)

/-- One stretch after the other. -/
theorem trans (h : Throughout R P s cs t) (h' : Throughout R P t ds u) :
    Throughout R P s (cs ++ ds) u := by
  refine ⟨trans_of R h.last h'.last, fun call hcall => ?_⟩
  rcases List.mem_append.mp hcall with hcall | hcall
  · exact h.calls call hcall
  · exact ⟨trans_of R h.last (h'.calls call hcall).1, (h'.calls call hcall).2⟩

theorem after (h : Throughout R P t cs u) (ht : R s t) : Throughout R P s cs u :=
  (silent ht).trans h

/-- Somebody is called first. -/
theorem call (h : Throughout R P s cs t) {n : Notice} (hn : P n) (who : Subscriber) :
    Throughout R P s (⟨who, n, s⟩ :: cs) t :=
  ⟨h.last, List.forall_mem_cons.mpr ⟨⟨refl_of R s, hn⟩, h.calls⟩⟩

/-- Doing something for one item after the other, as long as there is something to rely on. -/
theorem foldl {α : Type} {step : Session → α → Session} {calls : Session → α → List Call}
    {Q : Session → Prop} {items : List α} (hQ : ∀ s, ∀ a ∈ items, Q s → Q (step s a))
    (h : ∀ s, ∀ a ∈ items, Q s → Throughout R P s (calls s a) (step s a)) {s : Session}
    (hs : Q s) : Throughout R P s (callsOver step calls items s) (items.foldl step s) := by
  induction items generalizing s with
  | nil => exact refl s
  | cons a items ih =>
    have hfirst := h s a List.mem_cons_self hs
    refine hfirst.trans (ih (fun s b hb => hQ s b (List.mem_cons_of_mem a hb))
      (fun s b hb => h s b (List.mem_cons_of_mem a hb)) (hQ s a List.mem_cons_self hs))

/-- Telling those who care, if this is among what calls may be about. -/
theorem deliver {n : Notice} {receive : Session → Subscriber → Session}
    {inner : Session → Subscriber → List Call}
    (h : ∀ s who, Throughout R P s (inner s who) (receive s who)) (hn : P n) (s : Session) :
    Throughout R P s (s.deliverCalls n receive inner) (s.deliver n receive) :=
  foldl (Q := fun _ => True) (fun _ _ _ _ => trivial) (fun s who _ _ => (h s who).call hn who)
    trivial

end Throughout

/-- From `s` to `t` nothing changes but the graph, the history and what was heard. -/
structure Aside (s t : Session) : Prop where
  config : t.config = s.config
  clocked : t.clocked = s.clocked
  buffer : t.buffer = s.buffer
  subscribers : t.subscribers = s.subscribers
  timers : t.timers = s.timers
  index : t.index = s.index
  fault : t.fault = s.fault

theorem Aside.refl (s : Session) : Aside s s := ⟨rfl, rfl, rfl, rfl, rfl, rfl, rfl⟩

theorem Aside.trans {s t u : Session} (h : Aside s t) (h' : Aside t u) : Aside s u :=
  ⟨h'.config.trans h.config, h'.clocked.trans h.clocked, h'.buffer.trans h.buffer,
    h'.subscribers.trans h.subscribers, h'.timers.trans h.timers, h'.index.trans h.index,
    h'.fault.trans h.fault⟩

instance : IsPreorder Session Aside where
  refl := Aside.refl
  trans _ _ _ := Aside.trans

theorem Aside.snapshot? {s t : Session} (h : Aside s t) (f : String) :
    t.snapshot? f = s.snapshot? f := by rw [Session.snapshot?, h.index, Session.snapshot?]

/-! ### Announcements -/

/-- Hearing of something changes nothing else. -/
theorem aside_hear (n : Notice) (s : Session) (who : Subscriber) : Aside s (s.hear n who) := by
  cases who with
  | listener => exact ⟨rfl, rfl, rfl, rfl, rfl, rfl, rfl⟩
  | indexer | graph | history => exact .refl s

/-- While something is announced, it is what everybody is called about. -/
theorem aside_announce (s : Session) (n : Notice) :
    Throughout Aside (· = n) s (s.announceCalls n) (s.announce n) :=
  .deliver (P := (· = n)) (fun s who => .silent (aside_hear n s who)) rfl s

/-- New edges change the graph alone. -/
theorem aside_rebuildEdges (s : Session) (f : String) :
    Throughout Aside (· = .graphUpdated f) s (s.rebuildEdgesCalls f) (s.rebuildEdges f) := by
  unfold rebuildEdgesCalls rebuildEdges
  cases s.snapshot? f with
  | none => exact .refl s
  | some c =>
    dsimp only
    split_ifs
    · exact .refl s
    · exact (aside_announce _ _).after ⟨rfl, rfl, rfl, rfl, rfl, rfl, rfl⟩

/-- Recorded changes change the history alone. -/
theorem aside_recordChanges (s : Session) (f : String) :
    Throughout Aside (∃ e, · = .historyRecorded e) s (s.recordChangesCalls f)
      (s.recordChanges f) := by
  have hone : ∀ (version : Int) (s : Session) (c : Change),
      Throughout Aside (∃ e, · = .historyRecorded e) s (recordChangeCalls f version s c)
        (recordChange f version s c) := fun version s c => by
    have hsaid := aside_announce
      { s with history := s.history.add (s.history.nextEvent f version c) }
      (.historyRecorded (s.history.nextEvent f version c))
    refine Throughout.after ⟨hsaid.last, fun call hcall => ?_⟩ ⟨rfl, rfl, rfl, rfl, rfl, rfl, rfl⟩
    exact ⟨(hsaid.calls call hcall).1, _, (hsaid.calls call hcall).2⟩
  unfold recordChangesCalls recordChanges
  cases s.snapshot? f with
  | none => exact .refl s
  | some c =>
    dsimp only
    split_ifs
    · exact .silent ⟨rfl, rfl, rfl, rfl, rfl, rfl, rfl⟩
    · exact Throughout.after (.foldl (Q := fun _ => True) (fun _ _ _ _ => trivial)
        (fun s change _ _ => hone c.version s change) trivial) ⟨rfl, rfl, rfl, rfl, rfl, rfl, rfl⟩

/-- What a pass over the file `f` says: that there is a snapshot, and what graph and history make of
it. -/
def OfPass (f : String) (n : Notice) : Prop :=
  n = .snapshotUpdated f ∨ n = .graphUpdated f ∨ ∃ e, n = .historyRecorded e

/-- A snapshot is received without touching the index. -/
theorem aside_receiveSnapshot (f : String) (s : Session) (who : Subscriber) :
    Throughout Aside (OfPass f) s (receiveSnapshotCalls f s who) (receiveSnapshot f s who) := by
  cases who with
  | indexer => exact .refl s
  | graph =>
    have hedges := aside_rebuildEdges s f
    refine ⟨hedges.last, fun call hcall => ?_⟩
    exact ⟨(hedges.calls call hcall).1, Or.inr (Or.inl (hedges.calls call hcall).2)⟩
  | history =>
    have hchanges := aside_recordChanges s f
    refine ⟨hchanges.last, fun call hcall => ?_⟩
    exact ⟨(hchanges.calls call hcall).1, Or.inr (Or.inr (hchanges.calls call hcall).2)⟩
  | listener => exact .silent (aside_hear _ s .listener)

/-- So it is announced. -/
theorem aside_announceSnapshot (s : Session) (f : String) :
    Throughout Aside (OfPass f) s (s.announceSnapshotCalls f) (s.announceSnapshot f) :=
  .deliver (aside_receiveSnapshot f) (Or.inl rfl) s

theorem aside_dropEdges (s : Session) (f : String) :
    Throughout Aside (· = .graphUpdated f) s (s.dropEdgesCalls f) (s.dropEdges f) := by
  unfold dropEdgesCalls dropEdges
  split_ifs
  · exact (aside_announce _ _).after ⟨rfl, rfl, rfl, rfl, rfl, rfl, rfl⟩
  · exact .refl s

/-! ### Who is told -/

/-- What a subscriber does about a snapshot leads to no news of a snapshot. -/
theorem newsOf_receiveSnapshotCalls (f g : String) (s : Session) (who who' : Subscriber) :
    newsOf f who (receiveSnapshotCalls g s who') = [] := by
  refine newsOf_eq_nil (fun call hcall => ?_) who
  cases who' with
  | indexer | listener => cases hcall
  | graph => simp [((aside_rebuildEdges s g).calls call hcall).2]
  | history =>
    obtain ⟨-, e, he⟩ := (aside_recordChanges s g).calls call hcall
    simp [he]

/-- **Each subscriber that cares is told once**, and finds the snapshot that is announced. -/
theorem news_announceSnapshotCalls {s : Session} (hs : s.subscribers.Nodup) {who : Subscriber}
    (hwho : who ∈ s.subscribers) (hlistens : who.listensTo .snapshotUpdated = true) (f : String) :
    ∃ t, Aside s t ∧ newsOf f who (s.announceSnapshotCalls f) = [⟨who, .snapshotUpdated f, t⟩] := by
  let tell (s : Session) (who : Subscriber) : List Call :=
    ⟨who, .snapshotUpdated f, s⟩ :: receiveSnapshotCalls f s who
  have htell : ∀ t who', newsOf f who (tell t who') =
      if who' = who then [⟨who, .snapshotUpdated f, t⟩] else [] := by
    intro t who'
    have hinner := newsOf_receiveSnapshotCalls f f t who who'
    split_ifs with heq
    · rw [newsOf, List.filter_cons_of_pos (by simp [Call.isNews, heq]), heq]
      exact congrArg (_ :: ·) (heq ▸ hinner)
    · rw [newsOf, List.filter_cons_of_neg (by simp [Call.isNews, heq])]
      exact hinner
  have hfold : ∀ (whos : List Subscriber) (t : Session), whos.Nodup → Aside s t →
      if who ∈ whos then ∃ u, Aside s u ∧
        newsOf f who (callsOver (receiveSnapshot f) tell whos t) = [⟨who, .snapshotUpdated f, u⟩]
      else newsOf f who (callsOver (receiveSnapshot f) tell whos t) = [] := by
    intro whos
    induction whos with
    | nil => exact fun t _ _ => rfl
    | cons who' whos ih =>
      intro t hnodup ht
      obtain ⟨hnot, hrest⟩ := List.nodup_cons.mp hnodup
      have hnext := ih (receiveSnapshot f t who') hrest
        (ht.trans (aside_receiveSnapshot f t who').last)
      rw [callsOver, newsOf_append, htell]
      by_cases heq : who' = who
      · subst heq
        rw [if_neg hnot] at hnext
        rw [if_pos List.mem_cons_self, if_pos rfl, hnext]
        exact ⟨t, ht, rfl⟩
      · simpa [heq, Ne.symm heq] using hnext
  have hcares : who ∈ s.audience (.snapshotUpdated f) := List.mem_filter.mpr ⟨hwho, hlistens⟩
  have hall := hfold (s.audience (.snapshotUpdated f)) s (hs.filter _) (.refl s)
  rwa [if_pos hcares] at hall

end Session
end SymbolAtlas
