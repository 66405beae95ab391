import SymbolAtlas.Proofs.Announcing
import SymbolAtlas.Proofs.Attribution
import SymbolAtlas.Proofs.Snapshot

/-!
# What an operation does to a file

Whatever an operation is, one of three things becomes of the snapshot of a file (`Happens`): nothing
happens to it; the file is forgotten; or a complete snapshot of the document that is open takes its
place, and every subscriber that cares is told of it once.  Those who are called on the way find the
snapshot as it was before, or as it is afterwards.

A pass over a file leaves all other files alone (`LeavesAlone`), and an operation makes at most one
pass over each file because timers, open files and subscribers are there once.
-/

namespace SymbolAtlas
namespace Session

variable {s t : Session} {f : String} {n : Notice}

/-- What becomes of the snapshot of a file. -/
inductive Outcome where
  | untouched
  | forgotten
  | installed (d : Document) (c : Snapshot)
  deriving DecidableEq, Repr

/-- Whether a snapshot is installed. -/
def Outcome.installs : Outcome → Bool
  | .installed _ _ => true
  | _ => false

/-- The document `d` of the file `f` is open, and its snapshot is `c`. -/
structure Indexed (f : String) (d : Document) (c : Snapshot) (s : Session) : Prop where
  document : s.buffer.get? f = some d
  snapshot : s.snapshot? f = some c

/-- The indexer knows nothing about the file `f`. -/
structure Forgotten (f : String) (s : Session) : Prop where
  tracked : f ∉ s.index.tracked
  snapshot : s.snapshot? f = none
  lineage : s.index.lineages.get? f = none

/-- From `s` to `t`, with the given calls on the way, the outcome for the file `f`.  What is
installed is newer than what was there, or of the same version if a pass is forced. -/
inductive Happens (f : String) (forced : Bool) (s : Session) :
    List Call → Session → Outcome → Prop
  | untouched {cs : List Call} {t : Session} (last : t.snapshot? f = s.snapshot? f)
      (calls : ∀ call ∈ cs, call.session.snapshot? f = s.snapshot? f)
      (news : ∀ who, newsOf f who cs = []) : Happens f forced s cs t .untouched
  | forgotten {cs ds : List Call} {t : Session} (last : t.Forgotten f)
      (before : ∀ call ∈ cs, call.session.snapshot? f = s.snapshot? f)
      (after : ∀ call ∈ ds, call.session.Forgotten f)
      (news : ∀ who, newsOf f who (cs ++ ds) = []) : Happens f forced s (cs ++ ds) t .forgotten
  | installed {cs ds : List Call} {t : Session} {d : Document} {c : Snapshot}
      (last : t.Indexed f d c) (complete : c.Reflects d)
      (version : ∀ c₀, s.snapshot? f = some c₀ →
        c₀.version < c.version ∨ forced = true ∧ c₀.version = c.version)
      (before : ∀ call ∈ cs, call.session.snapshot? f = s.snapshot? f)
      (after : ∀ call ∈ ds, call.session.Indexed f d c)
      (silence : ∀ who, newsOf f who cs = [])
      (news : ∀ who ∈ s.subscribers, who.listensTo .snapshotUpdated = true →
        (newsOf f who ds).length = 1) : Happens f forced s (cs ++ ds) t (.installed d c)

/-! ### Leaving a file alone -/

/-- From `s` to `t` nothing changes that the indexer knows of the file `f`, and no document. -/
structure Alone (f : String) (s t : Session) : Prop where
  buffer : t.buffer = s.buffer
  subscribers : t.subscribers = s.subscribers
  tracked : f ∈ t.index.tracked ↔ f ∈ s.index.tracked
  snapshot : t.snapshot? f = s.snapshot? f
  lineage : t.index.lineages.get? f = s.index.lineages.get? f

instance (f : String) : IsPreorder Session (Alone f) where
  refl _ := ⟨rfl, rfl, Iff.rfl, rfl, rfl⟩
  trans _ _ _ h h' := ⟨h'.buffer.trans h.buffer, h'.subscribers.trans h.subscribers,
    h'.tracked.trans h.tracked, h'.snapshot.trans h.snapshot, h'.lineage.trans h.lineage⟩

/-- Nothing happens to the file `f`, and nobody is told that it has a new snapshot. -/
abbrev LeavesAlone (f : String) : Session → List Call → Session → Prop :=
  Throughout (Alone f) (· ≠ .snapshotUpdated f)

/-- What leaves the index alone leaves each file alone. -/
theorem Aside.alone (h : Aside s t) (f : String) : Alone f s t :=
  ⟨h.buffer, h.subscribers, by rw [h.index], h.snapshot? f, by rw [h.index]⟩

theorem Throughout.leavesAlone {P : Notice → Prop} {cs : List Call}
    (h : Throughout Aside P s cs t) (hP : ∀ n, P n → n ≠ .snapshotUpdated f) :
    LeavesAlone f s cs t :=
  ⟨h.last.alone f, fun call hcall =>
    ⟨(h.calls call hcall).1.alone f, hP _ (h.calls call hcall).2⟩⟩

section Alone

variable {f : String} {forced : Bool} {s t u : Session} {cs ds : List Call} {o : Outcome}

/-- A file left alone stays indexed. -/
theorem Alone.indexed {d : Document} {c : Snapshot} (h : Alone f s t) (hs : s.Indexed f d c) :
    t.Indexed f d c := ⟨h.buffer ▸ hs.document, h.snapshot.trans hs.snapshot⟩

theorem Alone.forgotten (h : Alone f s t) (hs : s.Forgotten f) : t.Forgotten f :=
  ⟨fun hin => hs.tracked (h.tracked.mp hin), h.snapshot.trans hs.snapshot,
    h.lineage.trans hs.lineage⟩

/-- There is no news of a file left alone. -/
theorem newsOf_of_leavesAlone (h : LeavesAlone f s cs t) (who : Subscriber) :
    newsOf f who cs = [] :=
  newsOf_eq_nil (fun call hcall => (h.calls call hcall).2) who

/-- It is untouched. -/
theorem happens_of_leavesAlone (h : LeavesAlone f s cs t) : Happens f forced s cs t .untouched :=
  .untouched h.last.snapshot (fun call hcall => (h.calls call hcall).1.snapshot)
    (newsOf_of_leavesAlone h)

/-- A change of something else comes before. -/
theorem Happens.after (h : Happens f forced t cs u o) (ht : t.snapshot? f = s.snapshot? f)
    (hsubscribers : t.subscribers = s.subscribers) : Happens f forced s cs u o := by
  cases h with
  | untouched last calls news => exact .untouched (ht ▸ last) (ht ▸ calls) news
  | forgotten last before after news => exact .forgotten last (ht ▸ before) after news
  | installed last complete version before after silence news =>
    exact .installed last complete (ht ▸ version) (ht ▸ before) after silence (hsubscribers ▸ news)

/-- The file is left alone before. -/
theorem Happens.after_alone (h : Happens f forced t ds u o) (h' : LeavesAlone f s cs t) :
    Happens f forced s (cs ++ ds) u o := by
  have hcs : ∀ call ∈ cs, call.session.snapshot? f = s.snapshot? f :=
    fun call hcall => (h'.calls call hcall).1.snapshot
  have hsilence := newsOf_of_leavesAlone h'
  have hboth : ∀ {es : List Call}, (∀ call ∈ es, call.session.snapshot? f = t.snapshot? f) →
      ∀ call ∈ cs ++ es, call.session.snapshot? f = s.snapshot? f := by
    intro es hes call hcall
    rcases List.mem_append.mp hcall with hcall | hcall
    · exact hcs call hcall
    · exact (hes call hcall).trans h'.last.snapshot
  have hnews : ∀ {es : List Call} (who : Subscriber),
      newsOf f who (cs ++ es) = newsOf f who es := fun who => by
    rw [newsOf_append, hsilence, List.nil_append]
  cases h with
  | untouched last calls news =>
    exact .untouched (last.trans h'.last.snapshot) (hboth calls)
      fun who => (hnews who).trans (news who)
  | forgotten last before after news =>
    rw [← List.append_assoc]
    refine .forgotten last (hboth before) after fun who => ?_
    rw [List.append_assoc, hnews, news]
  | installed last complete version before after silence news =>
    rw [← List.append_assoc]
    exact .installed last complete (h'.last.snapshot ▸ version) (hboth before) after
      (fun who => (hnews who).trans (silence who)) (h'.last.subscribers ▸ news)

/-- The file is left alone afterwards. -/
theorem Happens.then_alone (h : Happens f forced s cs t o) (h' : LeavesAlone f t ds u) :
    Happens f forced s (cs ++ ds) u o := by
  have hsilence := newsOf_of_leavesAlone h'
  cases h with
  | untouched last calls news =>
    refine .untouched (h'.last.snapshot.trans last) (fun call hcall => ?_) fun who => ?_
    · rcases List.mem_append.mp hcall with hcall | hcall
      · exact calls call hcall
      · exact (h'.calls call hcall).1.snapshot.trans last
    · rw [newsOf_append, news, hsilence, List.append_nil]
  | forgotten last before after news =>
    rw [List.append_assoc]
    refine .forgotten (h'.last.forgotten last) before (fun call hcall => ?_) fun who => ?_
    · rcases List.mem_append.mp hcall with hcall | hcall
      · exact after call hcall
      · exact (h'.calls call hcall).1.forgotten last
    · rw [← List.append_assoc, newsOf_append, news, hsilence, List.append_nil]
  | installed last complete version before after silence news =>
    rw [List.append_assoc]
    refine .installed (h'.last.indexed last) complete version before (fun call hcall => ?_) silence
      fun who hwho hl => ?_
    · rcases List.mem_append.mp hcall with hcall | hcall
      · exact after call hcall
      · exact (h'.calls call hcall).1.indexed last
    · rw [newsOf_append, hsilence, List.append_nil]
      exact news who hwho hl

/-- Somebody is called about something else first. -/
theorem Happens.call (h : Happens f forced s cs t o) (hn : n ≠ .snapshotUpdated f)
    (who : Subscriber) : Happens f forced s (⟨who, n, s⟩ :: cs) t o := by
  have hidle : LeavesAlone f s [] s := .refl s
  exact h.after_alone (hidle.call hn who)

end Alone

/-! ### Passes -/

/-- A pass over the file `g` may be made: all other files are left alone, and it has some outcome
for `g` itself. -/
structure Touches (f g : String) (forced : Bool) (s : Session) (cs : List Call) (t : Session) :
    Prop where
  alone : g ≠ f → LeavesAlone f s cs t
  own : g = f → ∃ o, Happens f forced s cs t o

section Touches

variable {f g : String} {forced : Bool} {s t u : Session} {cs ds : List Call}

/-- Another file does not notice that something is done about the file `g`. -/
theorem Nudges.alone (h : Nudges g s t) (hg : g ≠ f) : Alone f s t := by
  cases h with
  | mk timers tracked hreaches htracked => exact ⟨rfl, rfl, htracked f (Ne.symm hg), rfl, rfl⟩

theorem Touches.after (h : Touches f g forced t cs u) (halone : g ≠ f → Alone f s t)
    (hsnapshot : t.snapshot? f = s.snapshot? f) (hsubscribers : t.subscribers = s.subscribers) :
    Touches f g forced s cs u := by
  refine ⟨fun hg => (h.alone hg).after (halone hg), fun hg => ?_⟩
  obtain ⟨o, ho⟩ := h.own hg
  exact ⟨o, ho.after hsnapshot hsubscribers⟩

theorem Touches.nudged (h : Touches f g forced t cs u) (ht : Nudges g s t) :
    Touches f g forced s cs u := by
  refine h.after ht.alone ?_ ?_
  · cases ht
    rfl
  · cases ht
    rfl

theorem Touches.idle (f g : String) (forced : Bool) (s : Session) : Touches f g forced s [] s :=
  ⟨fun _ => .refl s, fun _ => ⟨_, happens_of_leavesAlone (.refl s)⟩⟩

/-- What touches a file has an outcome. -/
theorem Touches.happens (h : Touches f g forced s cs t) : ∃ o, Happens f forced s cs t o := by
  by_cases hg : g = f
  · exact h.own hg
  · exact ⟨_, happens_of_leavesAlone (h.alone hg)⟩

/-- Forgetting a file touches that file only. -/
theorem touches_forget (f g : String) (forced : Bool) (s : Session) :
    Touches f g forced s [] (s.forget g) := by
  constructor
  · intro hg
    refine .silent ⟨rfl, rfl, ?_, ?_, ?_⟩
    · simp [forget, Index.forget, Ne.symm hg]
    · simp [forget, Index.forget, snapshot?, Entries.get?_erase, Ne.symm hg]
    · simp [forget, Index.forget, Entries.get?_erase, Ne.symm hg]
  · rintro rfl
    have hforgotten : (s.forget g).Forgotten g :=
      ⟨by simp [forget, Index.forget],
        by simp [forget, Index.forget, snapshot?, Entries.get?_erase],
        by simp [forget, Index.forget, Entries.get?_erase]⟩
    have hhappens : Happens g forced s ([] ++ []) (s.forget g) .forgotten :=
      .forgotten hforgotten (by simp) (by simp) fun _ => rfl
    exact ⟨.forgotten, hhappens⟩

/-- **A snapshot is installed**, and everybody who cares is told of it. -/
theorem touches_installed (hs : s.Tidy) (f : String) {d : Document} {ids : List String}
    {l : Lineage} (hd : s.Passable d.fileId forced d) (hassign : s.assignment d = (.ok ids, l)) :
    Touches f d.fileId forced s ((s.withSnapshot d ids l).announceSnapshotCalls d.fileId)
      ((s.withSnapshot d ids l).announceSnapshot d.fileId) := by
  set c := Snapshot.ofOutline d (Outline.ofText d.content) ids
  set t : Session := s.withSnapshot d ids l
  have haside := aside_announceSnapshot t d.fileId
  constructor
  · intro hg
    have halone : Alone f s t := by
      refine ⟨rfl, rfl, Iff.rfl, ?_, ?_⟩
      · exact (Entries.get?_put ..).trans (if_neg (Ne.symm hg))
      · exact (Entries.get?_put ..).trans (if_neg (Ne.symm hg))
    refine (haside.leavesAlone fun n hn => ?_).after halone
    rcases hn with rfl | rfl | ⟨e, rfl⟩ <;> simp [hg]
  · rintro rfl
    have hindexed : t.Indexed d.fileId d c :=
      ⟨hd.document, (Entries.get?_put ..).trans (if_pos rfl)⟩
    have hcomplete : c.Reflects d :=
      Snapshot.reflects_ofOutline d (Lineage.length_of_assign (congrArg Prod.fst hassign))
    have hhappens : Happens d.fileId forced s ([] ++ t.announceSnapshotCalls d.fileId)
        (t.announceSnapshot d.fileId) (.installed d c) := by
      refine .installed ((haside.last.alone _).indexed hindexed) hcomplete hd.version (by simp)
        (fun call hcall => ?_) (fun _ => rfl) fun who hwho hl => ?_
      · exact ((haside.calls call hcall).1.alone _).indexed hindexed
      · obtain ⟨u, -, hnews⟩ := news_announceSnapshotCalls (s := t) hs.subscribers hwho hl d.fileId
        exact congrArg List.length hnews
    exact ⟨_, hhappens⟩

/-- **A pass**, however it ends. -/
theorem Passes.touches (h : Passes g forced s cs t) (hs : s.Tidy) (f : String) :
    Touches f g forced s cs t := by
  cases h with
  | idle said =>
    exact (Touches.idle f g forced _).after (fun _ => ⟨rfl, rfl, Iff.rfl, rfl, rfl⟩) rfl rfl
  | dropped said =>
    exact (touches_forget f g forced _).after (fun _ => ⟨rfl, rfl, Iff.rfl, rfl, rfl⟩) rfl rfl
  | stranded hd hassign =>
    -- a lineage that could not assign ids is kept all the same
    obtain rfl := hs.filed g _ hd.document
    refine ⟨fun hg => .silent ⟨rfl, rfl, Iff.rfl, rfl, ?_⟩, fun _ => ⟨.untouched, ?_⟩⟩
    · rw [Entries.get?_put, if_neg (Ne.symm hg)]
    · exact .untouched rfl (by simp) fun _ => rfl
  | installed hd hfault hassign =>
    obtain rfl := hs.filed g _ hd.document
    exact touches_installed hs f hd hassign

/-- So does tending to it. -/
theorem Tends.touches (h : Tends g s cs t) (hs : s.Tidy) (f : String) :
    Touches f g false s cs t := by
  cases h with
  | waits h => exact (Touches.idle f g false t).nudged h
  | passes h hp => exact (hp.touches (hs.reaches h.quiet.reaches) f).nudged h

/-- A scheduled pass, once some timer is taken out. -/
theorem touches_timed (hs : s.Tidy) {timers : Timers} (hm : Moves s { s with timers := timers })
    (f g : String) :
    Touches f g false s ({ s with timers := timers }.scheduledPassCalls g)
      ({ s with timers := timers }.scheduledPass g) :=
  (Tends.passes (nudges_timers g hm) (passes_scheduledPass _ g)).touches hs f

end Touches

/-! ### One pass at most -/

/-- Of several items, each there once, only one has to do with the file. -/
theorem happens_foldl {α : Type} [DecidableEq α] (own : α) {step : Session → α → Session}
    {calls : Session → α → List Call} (hreaches : ∀ s a, Reaches s (step s a))
    (hothers : ∀ s a, s.Tidy → a ≠ own → LeavesAlone f s (calls s a) (step s a))
    (hown : ∀ s, s.Tidy → ∃ o, Happens f false s (calls s own) (step s own) o) {items : List α}
    (hitems : items.Nodup) (hs : s.Tidy) :
    ∃ o, Happens f false s (callsOver step calls items s) (items.foldl step s) o := by
  induction items generalizing s with
  | nil => exact ⟨_, happens_of_leavesAlone (.refl s)⟩
  | cons a items ih =>
    obtain ⟨ha, hrest⟩ := List.nodup_cons.mp hitems
    have hnext := hs.reaches (hreaches s a)
    by_cases heq : a = own
    · subst heq
      obtain ⟨o, ho⟩ := hown s hs
      refine ⟨o, ho.then_alone (.foldl (Q := Tidy) (fun s b _ hs => hs.reaches (hreaches s b))
        (fun s b hb hs => hothers s b hs (ne_of_mem_of_not_mem hb ha)) hnext)⟩
    · obtain ⟨o, ho⟩ := ih hrest hnext
      exact ⟨o, ho.after_alone (hothers s a hs heq)⟩

/-- A file that is not waiting is left alone. -/
theorem leavesAlone_passUntil (f : String) (target : Int) (fuel : Nat) (hs : s.Tidy)
    (hdue : s.timers.due? f = none) :
    LeavesAlone f s (passUntilCalls target fuel s) (passUntil target fuel s) := by
  induction fuel generalizing s with
  | zero => exact .refl s
  | succ fuel ih =>
    unfold passUntilCalls passUntil
    cases hnext : s.timers.next? target with
    | none => exact .refl s
    | some timer =>
      have hm := Moves.goOff s timer
      have hne : timer.key ≠ f := by
        rintro rfl
        rw [Timers.due?_of_mem hs.timers (Timers.mem_of_next? hnext).1] at hdue
        cases hdue
      have hpass := passes_scheduledPass { s with timers := s.timers.goOff timer } timer.key
      refine ((touches_timed hs hm f timer.key).alone hne).trans (ih ?_ ?_)
      · exact (hs.moves hm).reaches hpass.unfolds.reaches
      · refine hpass.due? ?_
        rw [Timers.due?_goOff, if_neg (Ne.symm hne), hdue]

/-- Passes have one outcome for each file. -/
theorem happens_passUntil (f : String) (target : Int) (fuel : Nat) (hs : s.Tidy) :
    ∃ o, Happens f false s (passUntilCalls target fuel s) (passUntil target fuel s) o := by
  induction fuel generalizing s with
  | zero => exact ⟨_, happens_of_leavesAlone (.refl s)⟩
  | succ fuel ih =>
    unfold passUntilCalls passUntil
    cases s.timers.next? target with
    | none => exact ⟨_, happens_of_leavesAlone (.refl s)⟩
    | some timer =>
      have hm := Moves.goOff s timer
      have htouches := touches_timed hs hm f timer.key
      have hpass := passes_scheduledPass { s with timers := s.timers.goOff timer } timer.key
      have hgone := (hs.moves hm).reaches hpass.unfolds.reaches
      by_cases hkey : timer.key = f
      · obtain ⟨o, ho⟩ := htouches.own hkey
        refine ⟨o, ho.then_alone (leavesAlone_passUntil f target fuel hgone ?_)⟩
        refine hpass.due? ?_
        rw [Timers.due?_goOff, if_pos hkey.symm]
      · obtain ⟨o, ho⟩ := ih hgone
        exact ⟨o, ho.after_alone (htouches.alone hkey)⟩

/-! ### Notifications -/

/-- The indexer alone acts on a notification, and the others are called about it. -/
theorem happens_publish_of (hn : n ≠ .snapshotUpdated f) (hothers : ∀ s who, who ≠ .indexer →
      LeavesAlone f s (receiveCalls n s who) (receive n s who)) (hindexer : ∀ s, s.Tidy → ∃ o,
      Happens f false s (receiveCalls n s .indexer) (receive n s .indexer) o) (hs : s.Tidy) :
    ∃ o, Happens f false s (s.publishCalls n) (s.publish n) o := by
  refine happens_foldl .indexer (reaches_receive n)
    (fun s who _ hwho => (hothers s who hwho).call hn who) (fun s hs => ?_)
    (hs.subscribers.filter _) hs
  obtain ⟨o, ho⟩ := hindexer s hs
  exact ⟨o, ho.call hn .indexer⟩

/-- So has what is published. -/
theorem happens_publish (f : String) (hs : s.Tidy) (hn : ∀ g, n ≠ .snapshotUpdated g) :
    ∃ o, Happens f false s (s.publishCalls n) (s.publish n) o := by
  have hannounced : Happens f false s (s.announceCalls n) (s.announce n) .untouched :=
    happens_of_leavesAlone ((aside_announce s n).leavesAlone fun n' hn' => hn' ▸ hn f)
  have hheard : ∀ s : Session, LeavesAlone f s [] (s.hear n .listener) := fun s =>
    .silent ((aside_hear n s .listener).alone f)
  cases n with
  | documentAdded g =>
    refine happens_publish_of (hn f) (fun s who hwho => ?_)
      (fun s hs => ((tends_observe s g).touches hs f).happens) hs
    cases who with
    | indexer => exact absurd rfl hwho
    | graph | history => exact .refl s
    | listener => exact hheard s
  | contentChanged g =>
    refine happens_publish_of (hn f) (fun s who hwho => ?_)
      (fun s hs => ((tends_changed s g).touches hs f).happens) hs
    cases who with
    | indexer => exact absurd rfl hwho
    | graph | history => exact .refl s
    | listener => exact hheard s
  | documentRemoved g =>
    refine happens_publish_of (hn f) (fun s who hwho => ?_)
      (fun s _ => (touches_forget f g false s).happens) hs
    cases who with
    | indexer => exact absurd rfl hwho
    | graph => exact (aside_dropEdges s g).leavesAlone fun n hn => by simp [hn]
    | history => exact .silent ⟨rfl, rfl, Iff.rfl, rfl, rfl⟩
    | listener => exact hheard s
  | snapshotUpdated g => exact absurd rfl (hn g)
  | graphUpdated g => exact ⟨_, hannounced⟩
  | historyRecorded e => exact ⟨_, hannounced⟩

/-- Whatever is done with documents. -/
theorem Buffers.happens {cs : List Call} (h : Buffers s cs t) (hs : s.Tidy) (f : String) :
    ∃ o, Happens f false s cs t o := by
  cases h with
  | notes | keeps => exact ⟨.untouched, .untouched rfl (by simp) fun _ => rfl⟩
  | @tells b n h hn =>
    have hnews : ∀ g, n ≠ .snapshotUpdated g := by
      rintro g rfl
      cases hn
    obtain ⟨o, ho⟩ := happens_publish f (hs.moves h.moves) hnews
    exact ⟨o, ho.after rfl rfl⟩

/-! ### Operations -/

/-- Whether nothing is disposed of, and nobody but the indexer announces snapshots. -/
def Op.genuine : Op → Bool
  | .dispose _ | .publish (.snapshotUpdated _) => false
  | _ => true

/-- Whether a pass over a file is forced. -/
def Op.forces (f : String) : Op → Bool
  | .recompute g => decide (g = f)
  | _ => false

/-- **Every operation has an outcome for every file**, whatever it does to the documents. -/
theorem happens_step (hs : s.Tidy) (f : String) {op : Op} (hop : op.genuine = true) :
    ∃ o, Happens f (op.forces f) s (s.calls op) (s.step op).1 o := by
  cases op with
  | openDocument | update | edit | close | plant | uproot => exact (buffers_step s rfl).happens hs f
  | setFault fault => exact ⟨.untouched, .untouched rfl (by simp [calls]) fun _ => rfl⟩
  | publish n =>
    refine happens_publish f hs fun g hg => ?_
    subst hg
    cases hop
  | advance ms =>
    obtain ⟨o, ho⟩ := happens_passUntil f (s.timers.now + ms) s.timers.waiting.length hs
    have hclock : LeavesAlone f (passUntil (s.timers.now + ms) s.timers.waiting.length s) []
        (s.advance ms) := .silent ⟨rfl, rfl, Iff.rfl, rfl, rfl⟩
    have hboth := ho.then_alone hclock
    rw [List.append_nil] at hboth
    exact ⟨o, hboth⟩
  | flush =>
    exact happens_foldl f (fun s g => (tends_flushFile s g).unfolds.reaches)
      (fun s g hs hg => ((tends_flushFile s g).touches hs f).alone hg)
      (fun s hs => ((tends_flushFile s f).touches hs f).happens) hs.timers hs
  | flushFile g => exact ((tends_flushFile s g).touches hs f).happens
  | start =>
    exact happens_foldl f (fun s g => (tends_observe s g).unfolds.reaches)
      (fun s g hs hg => ((tends_observe s g).touches hs f).alone hg)
      (fun s hs => ((tends_observe s f).touches hs f).happens) hs.files hs
  | recompute g =>
    have hpass : Passes g true _ _ (s.recompute g).1 := passes_pass (by simp)
    have htouches := (hpass.touches (hs.moves (.cancel s g)) f).nudged
      (nudges_timers g (.cancel s g))
    by_cases hg : g = f
    · rw [Op.forces, decide_eq_true hg]
      exact htouches.own hg
    · exact ⟨_, happens_of_leavesAlone (htouches.alone hg)⟩
  | dispose part => cases hop

end Session
end SymbolAtlas
