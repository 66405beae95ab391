import Mathlib.Data.List.Perm.Subperm
import SymbolAtlas.Proofs.CallGraph
import SymbolAtlas.Proofs.FileState
import SymbolAtlas.Proofs.Moves

/-!
# Files do not interfere

An operation does to each file what it would do if there were no others: `file_step` says that
what a session knows about a file after an operation follows from what it knew about that file
before.  So does what is said: where the listener is registered after the three parts, as in every
session from the beginning, it hears of the file what follows from its state (`heardOf_step`).

`Session.ActsAt` says both of one step after the other, for the file it is about and all others.
-/

namespace SymbolAtlas

/-! ### The history of a file -/

namespace History

@[simp] theorem ofFile_know (h : History) (f g : String) : (h.know f).ofFile g = h.ofFile g := by
  unfold know
  split_ifs with hhas
  · rfl
  · simp only [ofFile, Entries.get?_put]
    split_ifs with hg
    · have hnone : h.files.get? g = none := by simpa [Entries.has, ← hg] using hhas
      rw [hnone]
      rfl
    · rfl

/-- Only the file whose baseline is set is affected. -/
theorem ofFile_setBaseline (h : History) (f : String) (baseline : Option Snapshot) (g : String) :
    (h.setBaseline f baseline).ofFile g =
      if g = f then { h.ofFile g with baseline := baseline } else h.ofFile g := by
  simp only [setBaseline, ofFile, Entries.get?_put]
  split_ifs with hg
  · simp [hg]
  · rfl

/-- Only the file whose baseline is dropped is affected. -/
theorem ofFile_forgetBaseline (h : History) (f g : String) :
    (h.forgetBaseline f).ofFile g =
      if g = f then { h.ofFile g with baseline := none } else h.ofFile g := by
  unfold forgetBaseline
  split_ifs with hhas hg hg
  · rw [ofFile_setBaseline, if_pos hg]
  · rw [ofFile_setBaseline, if_neg hg]
  · have hnone : h.files.get? g = none := by simpa [Entries.has, ← hg] using hhas
    simp [ofFile, hnone]
  · rfl

/-- An event goes to the log of its own file. -/
theorem ofFile_add (h : History) (e : Event) (g : String) :
    (h.add e).ofFile g =
      if g = e.fileId then { h.ofFile g with events := (h.ofFile g).events ++ [e] }
      else h.ofFile g := by
  simp only [add, ofFile, Entries.get?_put]
  split_ifs with hg
  · simp [hg]
  · rfl

end History

namespace Session

variable {s t : Session} {op : Op} {n : Notice} {d : Document} {now : Int} {ops : List Op}

/-! ### Sessions in order -/

/-- What all moves keep: the buffer files documents under their own ids, each once, and no file has
two timers. -/
structure Filed (s : Session) : Prop where
  filed : ∀ f d, s.buffer.get? f = some d → d.fileId = f
  files : s.buffer.files.Nodup
  timers : s.timers.keys.Nodup

/-- No move files a document under another id, or gives a file a second timer. -/
theorem Filed.moves (h : s.Filed) (hm : Moves s t) : t.Filed := by
  obtain ⟨hfiled, hfiles, htimers⟩ := h
  cases hm with
  | put d =>
    refine ⟨fun f d' hd' => ?_, Entries.nodup_keys_put hfiles _ _, htimers⟩
    simp only [Buffer.get?, Buffer.put, Entries.get?_put] at hd'
    split_ifs at hd' with hf
    · rw [← Option.some.inj hd', hf]
    · exact hfiled f d' hd'
  | remove g =>
    refine ⟨fun f d' hd' => ?_, Entries.nodup_keys_erase hfiles _, htimers⟩
    simp only [Buffer.get?, Buffer.remove, Entries.get?_erase] at hd'
    split_ifs at hd'
    exact hfiled f d' hd'
  | cancel f => exact ⟨hfiled, hfiles, Timers.nodup_keys_cancel htimers f⟩
  | schedule f => exact ⟨hfiled, hfiles, Timers.nodup_keys_schedule htimers _ f⟩
  | goOff timer => exact ⟨hfiled, hfiles, Timers.nodup_keys_cancel htimers timer.key⟩
  | _ => exact ⟨hfiled, hfiles, htimers⟩

/-- What all operations but disposal keep: the buffer is attached and files documents under their
own ids, the three parts are registered in their order, and no file has two timers. -/
structure Regular (s : Session) : Prop where
  attached : s.buffer.attached = true
  filed : ∀ f d, s.buffer.get? f = some d → d.fileId = f
  files : s.buffer.files.Nodup
  wired : s.subscribers.filter (· ≠ .listener) = [.indexer, .graph, .history]
  timers : s.timers.keys.Nodup

/-- No move registers or unregisters anybody. -/
theorem Moves.subscribers (h : Moves s t) : t.subscribers = s.subscribers := by
  cases h <;> rfl

/-- Every move keeps a session regular. -/
theorem Regular.moves (h : s.Regular) (hm : Moves s t) : t.Regular := by
  have hattached : t.buffer.attached = true := by
    cases hm <;> exact h.attached
  obtain ⟨hfiled, hfiles, htimers⟩ := Filed.moves ⟨h.filed, h.files, h.timers⟩ hm
  exact ⟨hattached, hfiled, hfiles, hm.subscribers ▸ h.wired, htimers⟩

/-- So do moves one after the other. -/
theorem Regular.reaches (h : s.Regular) (hr : Reaches s t) : t.Regular := by
  induction hr with
  | refl => exact h
  | tail _ hm ih => exact ih.moves hm

/-! ### What the listener hears -/

/-- What the listener has heard about a file. -/
def heardOf (s : Session) (f : String) : List Notice :=
  (s.heard.filter (·.fileId = f)).map Notice.plain

/-- Whether there is a listener. -/
def listened (s : Session) : Bool := s.subscribers.contains .listener

/-- What is heard of some notifications: all of them, if there is a listener. -/
def hears (s : Session) (ns : List Notice) : List Notice := if s.listened then ns else []

theorem hears_nil (s : Session) : s.hears [] = [] := ite_self _

/-- Notices are heard one after the other. -/
theorem hears_append (s : Session) (ns ms : List Notice) :
    s.hears (ns ++ ms) = s.hears ns ++ s.hears ms := by
  unfold hears
  split_ifs <;> rfl

/-- What is heard of a file grows by the notices about it. -/
theorem heardOf_append (s : Session) (ns : List Notice) (f : String) :
    { s with heard := s.heard ++ ns }.heardOf f =
      s.heardOf f ++ (ns.filter (·.fileId = f)).map Notice.plain := by
  rw [heardOf, heardOf, List.filter_append, List.map_append]

/-- A session in order whose listener, if it has one, is told after the three parts. -/
structure Attended (s : Session) : Prop extends Regular s where
  last : s.subscribers = [.indexer, .graph, .history] ∨
    s.subscribers = [.indexer, .graph, .history, .listener]

/-- Every move leaves the listener where it is. -/
theorem Attended.moves (h : s.Attended) (hm : Moves s t) : t.Attended :=
  ⟨h.toRegular.moves hm, hm.subscribers ▸ h.last⟩

theorem Attended.reaches (h : s.Attended) (hr : Reaches s t) : t.Attended := by
  induction hr with
  | refl => exact h
  | tail _ hm ih => exact ih.moves hm

/-- The subscribers stay the same. -/
theorem subscribers_of_reaches (hr : Reaches s t) : t.subscribers = s.subscribers := by
  induction hr with
  | refl => rfl
  | tail _ hm ih => exact hm.subscribers.trans ih

/-- Whoever listens before does so afterwards. -/
theorem hears_of_reaches (hr : Reaches s t) (ns : List Notice) : t.hears ns = s.hears ns := by
  rw [hears, hears, listened, listened, subscribers_of_reaches hr]

/-! ### Acting on files -/

/-- From `s` to `t` each file `f` becomes what `F f` makes of it, and a listener that comes last
hears `N f` of it. -/
structure ActsOnEach (F : String → FileState → FileState) (N : String → FileState → List Notice)
    (s t : Session) : Prop where
  file : ∀ f, t.file f = F f (s.file f)
  heard : s.Attended → ∀ f, t.heardOf f = s.heardOf f ++ s.hears (N f (s.file f))
  reaches : Reaches s t

namespace ActsOnEach

variable {F G : String → FileState → FileState} {N M : String → FileState → List Notice}
  {s t u : Session}

/-- Moves that say nothing act on each file by themselves. -/
theorem silent (hr : Reaches s t) (hheard : t.heard = s.heard)
    (hfile : ∀ f, t.file f = F f (s.file f)) (hN : ∀ f, N f (s.file f) = []) :
    ActsOnEach F N s t := by
  refine ⟨hfile, fun _ f => ?_, hr⟩
  rw [heardOf, hheard, hN, hears_nil, List.append_nil, heardOf]

/-- What is done to each file is done one after the other. -/
theorem trans (h : ActsOnEach F N s t) (h' : ActsOnEach G M t u) :
    ActsOnEach (fun f x => G f (F f x)) (fun f x => N f x ++ M f (F f x)) s u := by
  refine ⟨fun f => ?_, fun hs f => ?_, h.reaches.trans h'.reaches⟩
  · rw [h'.file, h.file]
  · rw [h'.heard (hs.reaches h.reaches), h.heard hs, h.file, hears_of_reaches h.reaches,
      List.append_assoc, hears_append]

/-- Only what happens to the states that there are matters. -/
theorem congr (h : ActsOnEach F N s t) (hF : ∀ f, F f (s.file f) = G f (s.file f))
    (hN : ∀ f, N f (s.file f) = M f (s.file f)) : ActsOnEach G M s t :=
  ⟨fun f => (h.file f).trans (hF f), fun hs f => hN f ▸ h.heard hs f, h.reaches⟩

end ActsOnEach

/-- From `s` to `t` the file `g` changes by `F`, and a listener that comes last hears `N` of it.
Nothing happens to other files, and no time goes by. -/
structure ActsAt (g : String) (F : FileState → FileState) (N : FileState → List Notice)
    (s t : Session) : Prop extends
    ActsOnEach (fun f x => if f = g then F x else x) (fun f x => if f = g then N x else []) s t
    where
  now : t.timers.now = s.timers.now

namespace ActsAt

variable {g : String} {F G : FileState → FileState} {N M : FileState → List Notice}
  {s t u : Session}

/-- Silent moves that leave the other files and the clock alone. -/
theorem of_reaches (hr : Reaches s t) (hheard : t.heard = s.heard)
    (hnow : t.timers.now = s.timers.now)
    (hfile : ∀ f, t.file f = if f = g then F (s.file f) else s.file f) :
    ActsAt g F (fun _ => []) s t :=
  ⟨.silent hr hheard hfile fun _ => ite_self _, hnow⟩

/-- It is enough to know what is done to the file as it is, and what is said about it. -/
theorem congr (h : ActsAt g F N s t) (hF : F (s.file g) = G (s.file g))
    (hN : N (s.file g) = M (s.file g)) : ActsAt g G M s t := by
  refine ⟨h.toActsOnEach.congr (fun f => ?_) fun f => ?_, h.now⟩
  · split_ifs with hf
    · rw [hf, hF]
    · rfl
  · split_ifs with hf
    · rw [hf, hN]
    · rfl

/-- Nothing changes about the file, and nothing is said, though something may be noted. -/
theorem idle (said : List Diagnostic) (hF : F (s.file g) = s.file g) (hN : N (s.file g) = []) :
    ActsAt g F N s { s with diagnostics := said } := by
  have hnone : ActsAt g id (fun _ => []) s { s with diagnostics := said } :=
    .of_reaches (.single (.note s said)) rfl rfl fun f => (ite_self _).symm
  exact hnone.congr hF.symm hN.symm

/-- What is done to each file is done one after the other. -/
theorem trans (h : ActsAt g F N s t) (h' : ActsAt g G M t u) :
    ActsAt g (fun x => G (F x)) (fun x => N x ++ M (F x)) s u := by
  refine ⟨(h.toActsOnEach.trans h'.toActsOnEach).congr (fun f => ?_) fun f => ?_,
    h'.now.trans h.now⟩
  · split_ifs <;> rfl
  · split_ifs <;> rfl

/-- In other words, each file changes in a way that leaves the others as they are. -/
theorem onEach {F' : String → FileState → FileState} {N' : String → FileState → List Notice}
    (h : ActsAt g F N s t) (hself : F (s.file g) = F' g (s.file g))
    (hsaid : N (s.file g) = N' g (s.file g))
    (hothers : ∀ f, g ≠ f → ∀ x, F' f x = x ∧ N' f x = []) : ActsOnEach F' N' s t := by
  refine h.toActsOnEach.congr (fun f => ?_) fun f => ?_
  · split_ifs with hf
    · rw [hf, hself]
    · exact (hothers f (Ne.symm hf) _).1.symm
  · split_ifs with hf
    · rw [hf, hsaid]
    · exact (hothers f (Ne.symm hf) _).2.symm

end ActsAt

/-! ### Announcements -/

/-- An announcement is heard by the listener, as often as it is registered, and does nothing
else. -/
theorem announce_eq (s : Session) (n : Notice) :
    s.announce n =
      { s with heard := s.heard ++ List.replicate (s.subscribers.count .listener) n } := by
  have hfold : ∀ (whos : List Subscriber) (t : Session), whos.foldl (hear n) t =
      { t with heard := t.heard ++ List.replicate (whos.count .listener) n } := by
    intro whos
    induction whos with
    | nil => exact fun t => by simp
    | cons who whos ih =>
      intro t
      rw [List.foldl_cons, ih]
      cases who with
      | listener => simp [hear, List.replicate_succ]
      | _ => simp [hear]
  have hlisteners : (s.subscribers.filter (·.listensTo n.topic)).count .listener =
      s.subscribers.count .listener := List.count_filter rfl
  rw [← hlisteners]
  exact hfold _ s

theorem heardOf_hearing (s : Session) (n : Notice) (f : String) :
    { s with heard := s.heard ++ [n] }.heardOf f =
      s.heardOf f ++ if f = n.fileId then [n.plain] else [] := by
  rw [heardOf_append]
  by_cases hf : f = n.fileId
  · simp [hf]
  · simp [hf, Ne.symm hf]

/-- What graph and history announce changes no file, and the listener hears it. -/
theorem actsAt_announce (s : Session) (hn : receive n = hear n) :
    ActsAt n.fileId id (fun _ => [n.plain]) s (s.announce n) := by
  have hreaches : Reaches s (s.announce n) := by
    have hpublish := (follows_publish s n).reaches
    rwa [publish, hn] at hpublish
  refine ⟨⟨fun f => ?_, fun hs f => ?_, hreaches⟩, ?_⟩
  · rw [announce_eq]
    exact (ite_self _).symm
  · have hone := heardOf_hearing s n f
    rw [announce_eq, hears, listened]
    rw [heardOf_append] at hone ⊢
    rcases hs.last with hlast | hlast
    · simp [hlast]
    · simpa [hlast] using hone
  · rw [announce_eq]

/-- The listener is called and notes what it hears. -/
theorem actsAt_hear (hs : s.listened = true) (n : Notice) :
    ActsAt n.fileId id (fun _ => [n.plain]) s (s.hear n .listener) := by
  refine ⟨⟨fun f => (ite_self _).symm, fun _ f => ?_, .single (.hear s n)⟩, rfl⟩
  rw [hears, if_pos hs]
  exact heardOf_hearing s n f

/-! ### What one part of a session says about a file -/

theorem file_graph (s : Session) (graph : CallGraph) (f : String) :
    { s with graph := graph }.file f = { s.file f with edges := graph.files.get? f } := rfl

theorem file_history (s : Session) (history : History) (f : String) :
    { s with history := history }.file f =
      { s.file f with
        baseline := (history.ofFile f).baseline
        events := (history.ofFile f).events.map fun e => (e.version, e.change) } := rfl

theorem file_index (s : Session) (index : Index) (f : String) :
    { s with index := index }.file f =
      { s.file f with
        tracked := f ∈ index.tracked
        snapshot := index.snapshots.get? f
        lineage := index.lineages.get? f } := rfl

theorem file_timers (s : Session) (timers : Timers) (f : String) :
    { s with timers := timers }.file f = { s.file f with due := timers.due? f } := rfl

theorem file_buffer (s : Session) (buffer : Buffer) (f : String) :
    { s with buffer := buffer }.file f = { s.file f with document := buffer.get? f } := rfl

section Parts

variable (s : Session) (g : String)

/-- The edges of a file are replaced. -/
theorem actsAt_replace {c : Snapshot} (h : s.snapshot? g = some c) :
    ActsAt g (fun x => { x with edges := some c.callEdges }) (fun _ => []) s
      { s with graph := s.graph.replace g c.callEdges } := by
  refine .of_reaches (.single (.replaceEdges s h)) rfl rfl fun f => ?_
  rw [file_graph, CallGraph.files_replace, Entries.get?_put]
  split_ifs <;> rfl

/-- The edges of a file are dropped. -/
theorem actsAt_drop :
    ActsAt g (fun x => { x with edges := none }) (fun _ => []) s
      { s with graph := s.graph.drop g } := by
  refine .of_reaches (.single (.dropEdges s g)) rfl rfl fun f => ?_
  rw [file_graph, CallGraph.files_drop, Entries.get?_erase]
  split_ifs <;> rfl

/-- A file gets a baseline, or loses it. -/
theorem actsAt_setBaseline (baseline : Option Snapshot) :
    ActsAt g (fun x => { x with baseline := baseline }) (fun _ => []) s
      { s with history := s.history.setBaseline g baseline } := by
  refine .of_reaches (.single (.history s _)) rfl rfl fun f => ?_
  rw [file_history, History.ofFile_setBaseline]
  split_ifs <;> rfl

theorem actsAt_forgetBaseline :
    ActsAt g (fun x => { x with baseline := none }) (fun _ => []) s
      { s with history := s.history.forgetBaseline g } := by
  refine .of_reaches (.single (.history s _)) rfl rfl fun f => ?_
  rw [file_history, History.ofFile_forgetBaseline]
  split_ifs <;> rfl

theorem actsAt_know :
    ActsAt g id (fun _ => []) s { s with history := s.history.know g } := by
  refine .of_reaches (.single (.history s _)) rfl rfl fun f => ?_
  rw [file_history, History.ofFile_know]
  split_ifs <;> rfl

/-- An event is recorded for its file. -/
theorem actsAt_add (e : Event) :
    ActsAt e.fileId (fun x => { x with events := x.events ++ [(e.version, e.change)] })
      (fun _ => []) s { s with history := s.history.add e } := by
  refine .of_reaches (.single (.history s _)) rfl rfl fun f => ?_
  rw [file_history, History.ofFile_add]
  split_ifs
  · simp [file, History.eventsOf]
  · rfl

/-- The timer of a file is dropped. -/
theorem actsAt_cancel :
    ActsAt g (fun x => { x with due := none }) (fun _ => []) s
      { s with timers := s.timers.cancel g } := by
  refine .of_reaches (.single (.cancel s g)) rfl rfl fun f => ?_
  rw [file_timers, Timers.due?_cancel]
  split_ifs <;> rfl

/-- The wait of a file starts afresh. -/
theorem actsAt_scheduleTimer :
    ActsAt g (fun x => { x with due := some (s.timers.now + x.config.delay) }) (fun _ => []) s
      { s with timers := s.timers.schedule s.config.delay g } := by
  refine .of_reaches (.single (.schedule s g)) rfl rfl fun f => ?_
  rw [file_timers, Timers.due?_schedule]
  split_ifs <;> rfl

theorem actsAt_track :
    ActsAt g (fun x => { x with tracked := true }) (fun _ => []) s
      { s with index := s.index.track g } := by
  refine .of_reaches (.single (.track s g)) rfl rfl fun f => ?_
  rw [file_index, Index.track]
  split_ifs with hmem hf hf
  · subst hf
    simp [hmem, file, snapshot?]
  · rfl
  · simp [hf, file, snapshot?]
  · simp [hf, file, snapshot?]

/-- The indexer forgets a file. -/
theorem actsAt_forget : ActsAt g FileState.forget (fun _ => []) s (s.forget g) := by
  refine .of_reaches (quiet_forget s g).reaches rfl rfl fun f => ?_
  rw [forget, file_index { s with timers := s.timers.cancel g }, file_timers, Timers.due?_cancel]
  simp only [Index.forget, Entries.get?_erase, List.mem_filter]
  split_ifs with hf
  · simp [hf, FileState.forget]
  · simp [hf, file, snapshot?]

/-- A pass that runs out of ids leaves its lineage behind, and no snapshot. -/
theorem actsAt_strand {e : AssignError} {l : Lineage} (hd : s.buffer.get? g = some d)
    (h : s.assignment d = (.error e, l)) :
    ActsAt d.fileId (fun x => { x with lineage := some l }) (fun _ => []) s
      (s.withLineage d l) := by
  refine .of_reaches (.single (.strand s hd h)) rfl rfl fun f => ?_
  rw [file_index]
  simp only [Entries.get?_put]
  split_ifs <;> rfl

/-- A file gets a new lineage and a snapshot. -/
theorem actsAt_putSnapshot {ids : List String} {l : Lineage} (hd : s.buffer.get? g = some d)
    (h : s.assignment d = (.ok ids, l)) :
    ActsAt d.fileId (fun x => { x with
      lineage := some l, snapshot := some (.ofOutline d (Outline.ofText d.content) ids) })
      (fun _ => []) s (s.withSnapshot d ids l) := by
  refine .of_reaches (.single (.install s hd h)) rfl rfl fun f => ?_
  rw [file_index]
  simp only [Entries.get?_put]
  split_ifs <;> rfl

/-- A document is put into the buffer. -/
theorem actsAt_put (d : Document) :
    ActsAt d.fileId (fun x => { x with document := some d }) (fun _ => []) s
      { s with buffer := s.buffer.put d } := by
  refine .of_reaches (.single (.put s d)) rfl rfl fun f => ?_
  rw [file_buffer]
  simp only [Buffer.get?, Buffer.put, Entries.get?_put]
  split_ifs <;> rfl

/-- A document is taken out of the buffer. -/
theorem actsAt_remove :
    ActsAt g (fun x => { x with document := none }) (fun _ => []) s
      { s with buffer := s.buffer.remove g } := by
  refine .of_reaches (.single (.remove s g)) rfl rfl fun f => ?_
  rw [file_buffer]
  simp only [Buffer.get?, Buffer.remove, Entries.get?_erase]
  split_ifs <;> rfl

end Parts

/-! ### Telling the parts -/

/-- Some subscribers are told `n`, and each does to the file what it does on its own. -/
theorem actsAt_foldl (hparts : ∀ s who, who ≠ .listener → s.Regular → s.timers.now = now →
      ActsAt n.fileId (·.reaction now n who) (·.answer n who) s (receive n s who))
    (whos : List Subscriber) (hs : s.Regular) (hnow : s.timers.now = now)
    (hlistened : .listener ∈ whos → s.listened = true) :
    ActsAt n.fileId (fun x => whos.foldl (FileState.reaction now n) x)
      (FileState.answers now n whos) s (whos.foldl (receive n) s) := by
  induction whos generalizing s with
  | nil => exact .idle s.diagnostics rfl rfl
  | cons who whos ih =>
    have hwho : ActsAt n.fileId (·.reaction now n who) (·.answer n who) s (receive n s who) := by
      by_cases h : who = .listener
      · subst h
        have hhear := actsAt_hear (hlistened (List.mem_cons_self ..)) n
        cases n <;> exact hhear
      · exact hparts s who h hs hnow
    have hkept : (receive n s who).listened = s.listened := by
      rw [listened, listened, subscribers_of_reaches hwho.reaches]
    exact hwho.trans (ih (hs.reaches hwho.reaches) (hwho.now.trans hnow)
      fun h => hkept.trans (hlistened (List.mem_cons_of_mem _ h)))

/-- What is published does to the file what the three parts do about it, and the listener hears what
they say and what they were told. -/
theorem actsAt_publish_of (hparts : ∀ s who, who ≠ .listener → s.Regular → s.timers.now = now →
      ActsAt n.fileId (·.reaction now n who) (·.answer n who) s (receive n s who))
    (hs : s.Regular) (hnow : s.timers.now = now) :
    ActsAt n.fileId (·.receive n.fileId now n) (·.receiveNotices n.fileId n) s (s.publish n) := by
  have hall := actsAt_foldl hparts s.subscribers hs hnow (by simp [listened])
  rw [← publish_eq_foldl] at hall
  refine ⟨⟨fun f => ?_, fun hatt f => ?_, hall.reaches⟩, hall.now⟩
  · rw [hall.file]
    simp only [FileState.foldl_reaction now n hs.wired]
  · rw [hall.heard hatt, hears, hears]
    rcases hatt.last with hlast | hlast
    · simp [listened, hlast]
    · simp only [hlast, FileState.answers_eq]

/-! ### Following a snapshot -/


/-- The graph takes over the calls of a snapshot. -/
theorem actsAt_rebuildEdges (s : Session) (g : String) :
    ActsAt g FileState.rebuildEdges (·.edgesNotices g) s (s.rebuildEdges g) := by
  have hidle := ActsAt.idle (s := s) (g := g) (F := FileState.rebuildEdges)
    (N := (·.edgesNotices g)) s.diagnostics
  unfold rebuildEdges
  cases h : s.snapshot? g with
  | none =>
    refine hidle ?_ ?_ <;>
      simp only [FileState.rebuildEdges, FileState.edgesNotices, file_snapshot, h]
  | some snapshot =>
    dsimp only
    split_ifs with hf
    · refine hidle ?_ ?_ <;>
        simp only [FileState.rebuildEdges, FileState.edgesNotices, file_snapshot, h, file_fault,
          if_pos hf]
    · have hsaid := actsAt_announce { s with graph := s.graph.replace g snapshot.callEdges }
        (n := .graphUpdated g) rfl
      refine ((actsAt_replace s g h).trans hsaid).congr ?_ ?_
      · simp only [FileState.rebuildEdges, file_snapshot, h, file_fault, if_neg hf, id]
      · simp only [FileState.edgesNotices, file_snapshot, h, file_fault, if_neg hf]
        rfl

/-- Changes are recorded one by one. -/
theorem actsAt_recordEach (g : String) (version : Int) (cs : List Change) (s : Session) :
    ActsAt g (fun x => { x with events := x.events ++ cs.map fun c => (version, c) })
      (fun _ => cs.map fun c => .historyRecorded ⟨0, g, version, c⟩) s
      (cs.foldl (recordChange g version) s) := by
  induction cs generalizing s with
  | nil => exact .idle s.diagnostics (by simp) rfl
  | cons c cs ih =>
    have hone := (actsAt_add s (s.history.nextEvent g version c)).trans
      (actsAt_announce _ (n := .historyRecorded (s.history.nextEvent g version c)) rfl)
    exact (hone.trans (ih _)).congr (by simp [History.nextEvent]) rfl

/-- The history records how a snapshot differs from the baseline. -/
theorem actsAt_recordChanges (s : Session) (g : String) :
    ActsAt g FileState.recordChanges (·.changesNotices g) s (s.recordChanges g) := by
  have hbaseline : (s.history.know g).hasBaseline g = (s.file g).baseline.isSome := by
    rw [History.hasBaseline, History.ofFile_know]
    rfl
  have hchanges : ∀ snapshot, (s.history.know g).changesWith g snapshot =
      (s.file g).changesWith snapshot := by
    intro snapshot
    rw [History.changesWith, History.ofFile_know]
    rfl
  unfold recordChanges
  cases h : s.snapshot? g with
  | none =>
    refine .idle s.diagnostics ?_ ?_ <;>
      simp only [FileState.recordChanges, FileState.changesNotices, file_snapshot, h]
  | some snapshot =>
    have hknow := actsAt_know s g
    simp only [hbaseline, hchanges]
    split_ifs with hf
    · refine hknow.congr ?_ ?_
      · simp only [FileState.recordChanges, file_snapshot, h, file_fault, if_pos hf, id]
      · simp only [FileState.changesNotices, file_snapshot, h, file_fault, if_pos hf]
    · have hset := actsAt_setBaseline { s with history := s.history.know g } g (some snapshot)
      refine ((hknow.trans hset).trans (actsAt_recordEach g snapshot.version _ _)).congr ?_ ?_
      · simp only [FileState.recordChanges, file_snapshot, h, file_fault, if_neg hf, id]
      · simp only [FileState.changesNotices, file_snapshot, h, file_fault, if_neg hf]
        rfl

/-- All are told of a new snapshot. -/
theorem actsAt_announceSnapshot (hs : s.Regular) (g : String) :
    ActsAt g (fun x => x.rebuildEdges.recordChanges) (·.snapshotNotices g) s
      (s.announceSnapshot g) := by
  have hparts : ∀ t who, who ≠ .listener → t.Regular → t.timers.now = s.timers.now →
      ActsAt g (·.reaction s.timers.now (.snapshotUpdated g) who)
        (·.answer (.snapshotUpdated g) who) t (receiveSnapshot g t who) := by
    intro t who hwho _ _
    cases who with
    | indexer => exact .idle t.diagnostics rfl rfl
    | graph => exact actsAt_rebuildEdges t g
    | history => exact actsAt_recordChanges t g
    | listener => exact absurd rfl hwho
  exact (actsAt_publish_of (n := .snapshotUpdated g) hparts hs rfl).congr (if_pos rfl) (if_pos rfl)

/-! ### Passes -/

/-- A new snapshot is made and announced. -/
theorem actsAt_install (hs : s.Regular) {g : String} (hd : s.buffer.get? g = some d) :
    ActsAt g (·.install d) (·.installNotices g d) s (s.install d).1 := by
  obtain rfl := hs.filed g d hd
  have hassign : (s.file d.fileId).assign d = s.assignment d := rfl
  unfold install
  split_ifs with hf
  · refine .idle s.diagnostics ?_ ?_
    · exact if_pos hf
    · exact if_pos hf
  · dsimp only
    split
    · rename_i h
      refine (actsAt_strand s _ hd h).congr ?_ ?_ <;>
        simp only [FileState.install, FileState.installNotices, file_fault, if_neg hf, hassign, h]
    · rename_i ids l h
      have hput := actsAt_putSnapshot s _ hd h
      refine (hput.trans (actsAt_announceSnapshot (hs.reaches hput.reaches) _)).congr ?_ ?_
      · simp only [FileState.install, file_fault, if_neg hf, hassign, h]
      · simp only [FileState.installNotices, file_fault, if_neg hf, hassign, h, List.nil_append]

/-- A pass is made over a file. -/
theorem actsAt_pass (hs : s.Regular) (g : String) :
    ActsAt g FileState.pass (·.passNotices g) s (s.pass g).1 := by
  unfold pass
  cases h : (s.buffer.get? g).filter fun d => s.config.isSupported d.language with
  | none =>
    have hnothing : (s.file g).passNotices g = [] := by
      simp only [FileState.passNotices, file_supported, h]
    dsimp only
    split_ifs with hin
    · have hnote : ActsAt g id (fun _ => []) s (s.note (.dropped g)) := .idle _ rfl rfl
      refine (hnote.trans (actsAt_forget _ g)).congr ?_ hnothing.symm
      simp [FileState.pass, file_supported, h, file_tracked, hin]
    · refine .idle s.diagnostics ?_ hnothing
      simp [FileState.pass, file_supported, h, file_tracked, hin]
  | some d =>
    have hinstall := actsAt_install hs (Option.filter_eq_some_iff.mp h).1
    dsimp only
    split_ifs with hlong
    · refine .idle _ ?_ ?_ <;>
        simp only [FileState.pass, FileState.passNotices, file_supported, h, file_config,
          if_pos hlong]
    · cases hc : s.snapshot? g with
      | none =>
        refine hinstall.congr ?_ ?_ <;>
          simp only [FileState.pass, FileState.passNotices, file_supported, h, file_config,
            if_neg hlong, file_snapshot, hc]
      | some current =>
        dsimp only
        split_ifs with hold
        · refine .idle _ ?_ ?_ <;>
            simp only [FileState.pass, FileState.passNotices, file_supported, h, file_config,
              if_neg hlong, file_snapshot, hc, if_pos hold]
        · refine hinstall.congr ?_ ?_ <;>
            simp only [FileState.pass, FileState.passNotices, file_supported, h, file_config,
              if_neg hlong, file_snapshot, hc, if_neg hold]

/-- A scheduled pass is made, which may find nothing to do. -/
theorem actsAt_scheduledPass (hs : s.Regular) (g : String) :
    ActsAt g FileState.scheduledPass (·.scheduledPassNotices g) s (s.scheduledPass g) := by
  have hpass := actsAt_pass hs g
  unfold scheduledPass
  cases hd : s.buffer.get? g with
  | none =>
    refine hpass.congr ?_ ?_ <;>
      simp only [FileState.scheduledPass, FileState.scheduledPassNotices, file_document, hd]
  | some d =>
    cases hc : s.snapshot? g with
    | none =>
      refine hpass.congr ?_ ?_ <;>
        simp only [FileState.scheduledPass, FileState.scheduledPassNotices, file_document, hd,
          file_snapshot, hc]
    | some current =>
      dsimp only
      split_ifs with hv
      · refine .idle _ ?_ ?_ <;>
          simp only [FileState.scheduledPass, FileState.scheduledPassNotices, file_document, hd,
            file_snapshot, hc, if_pos hv]
      · refine hpass.congr ?_ ?_ <;>
          simp only [FileState.scheduledPass, FileState.scheduledPassNotices, file_document, hd,
            file_snapshot, hc, if_neg hv]

/-- A scheduled pass is made in place of the one that waits. -/
theorem actsAt_passNow (hs : s.Regular) (g : String) :
    ActsAt g FileState.passNow (·.passNowNotices g) s
      ({ s with timers := s.timers.cancel g }.scheduledPass g) :=
  (actsAt_cancel s g).trans (actsAt_scheduledPass (hs.moves (.cancel s g)) g)

/-- A pass is forced. -/
theorem actsAt_recompute (hs : s.Regular) (g : String) :
    ActsAt g (fun x => { x with due := none }.pass) (fun x => { x with due := none }.passNotices g)
      s (s.recompute g).1 :=
  (actsAt_cancel s g).trans (actsAt_pass (hs.moves (.cancel s g)) g)

/-- A pass is scheduled, or made at once where there is no clock. -/
theorem actsAt_schedule (hs : s.Regular) (g : String) :
    ActsAt g (FileState.schedule s.timers.now) (·.scheduleNotices g) s (s.schedule g) := by
  unfold schedule
  split_ifs with hc
  · exact (actsAt_scheduleTimer s g).congr (if_pos hc).symm (if_pos hc).symm
  · exact (actsAt_passNow hs g).congr (if_neg hc).symm (if_neg hc).symm

/-- A waiting pass is made now. -/
theorem actsAt_flushFile (hs : s.Regular) (g : String) :
    ActsAt g FileState.flush (·.flushNotices g) s (s.flushFile g) := by
  unfold flushFile
  rw [← file_due]
  split_ifs with hp
  · exact (actsAt_passNow hs g).congr (if_pos hp).symm (if_pos hp).symm
  · exact .idle s.diagnostics (if_neg hp) (if_neg hp)

/-- The indexer takes up a document. -/
theorem actsAt_observe (hs : s.Regular) (g : String) :
    ActsAt g (FileState.observe s.timers.now) (·.observeNotices g) s (s.observe g) := by
  unfold observe
  cases h : (s.buffer.get? g).filter fun d => s.config.isSupported d.language with
  | none =>
    refine .idle s.diagnostics ?_ ?_ <;>
      simp only [FileState.observe, FileState.observeNotices, file_supported, h]
  | some d =>
    refine ((actsAt_track s g).trans (actsAt_schedule (hs.moves (.track s g)) g)).congr ?_ ?_
    · simp only [FileState.observe, file_supported, h]
    · simp only [FileState.observeNotices, file_supported, h, List.nil_append]

/-! ### Whatever is published -/

/-- The indexer is told that a document has changed. -/
theorem actsAt_changed (hs : s.Regular) (g : String) :
    ActsAt g (·.reaction s.timers.now (.contentChanged g) .indexer)
      (·.answer (.contentChanged g) .indexer) s (receiveChanged g s .indexer) := by
  dsimp only [receiveChanged]
  split_ifs with hin
  · have htracked : (s.file g).tracked = true := decide_eq_true hin
    exact (actsAt_schedule hs g).congr (if_pos htracked).symm (if_pos htracked).symm
  · have htracked : ¬(s.file g).tracked = true := by simpa [file_tracked] using hin
    exact (actsAt_observe hs g).congr (if_neg htracked).symm (if_neg htracked).symm

/-- The graph is told that a document is closed. -/
theorem actsAt_dropEdges (s : Session) (g : String) :
    ActsAt g (·.reaction s.timers.now (.documentRemoved g) .graph)
      (·.answer (.documentRemoved g) .graph) s (s.dropEdges g) := by
  unfold dropEdges
  split_ifs with hhas
  · have hsaid := actsAt_announce { s with graph := s.graph.drop g } (n := .graphUpdated g) rfl
    exact ((actsAt_drop s g).trans hsaid).congr rfl (if_pos hhas).symm
  · have hnone : (s.file g).edges = none := Option.not_isSome_iff_eq_none.mp hhas
    refine .idle s.diagnostics ?_ (if_neg hhas)
    simp only [FileState.reaction, ← hnone]

/-- Each of the three parts does to the file what it does on its own. -/
theorem actsAt_receive (n : Notice) (who : Subscriber) (hwho : who ≠ .listener) (hs : s.Regular) :
    ActsAt n.fileId (·.reaction s.timers.now n who) (·.answer n who) s
      (receive n s who) := by
  cases n with
  | documentAdded g =>
    cases who with
    | indexer => exact actsAt_observe hs g
    | graph | history => exact .idle s.diagnostics rfl rfl
    | listener => exact absurd rfl hwho
  | contentChanged g =>
    cases who with
    | indexer => exact actsAt_changed hs g
    | graph | history => exact .idle s.diagnostics rfl rfl
    | listener => exact absurd rfl hwho
  | documentRemoved g =>
    cases who with
    | indexer => exact actsAt_forget s g
    | graph => exact actsAt_dropEdges s g
    | history => exact actsAt_forgetBaseline s g
    | listener => exact absurd rfl hwho
  | snapshotUpdated g =>
    cases who with
    | indexer => exact .idle s.diagnostics rfl rfl
    | graph => exact actsAt_rebuildEdges s g
    | history => exact actsAt_recordChanges s g
    | listener => exact absurd rfl hwho
  | graphUpdated g | historyRecorded e =>
    cases who with
    | listener => exact absurd rfl hwho
    | _ => exact .idle s.diagnostics rfl rfl

/-- **Whatever is published concerns one file**, whose state and notices are known beforehand. -/
theorem actsAt_publish (hs : s.Regular) (n : Notice) :
    ActsAt n.fileId (·.receive n.fileId s.timers.now n) (·.receiveNotices n.fileId n) s
      (s.publish n) :=
  actsAt_publish_of (fun _ who hwho ht hnow => hnow ▸ actsAt_receive n who hwho ht) hs rfl

/-! ### Documents -/

/-- The buffer changes and says so. -/
theorem ActsAt.published {b : Buffer} {F : FileState → FileState}
    (h : ActsAt n.fileId F (fun _ => []) s { s with buffer := b }) (hs : s.Regular) :
    ActsAt n.fileId (fun x => (F x).receive n.fileId s.timers.now n)
      (fun x => (F x).receiveNotices n.fileId n) s
      ({ s with buffer := b }.publishFromBuffer n) := by
  have hregular := hs.reaches h.reaches
  rw [publishFromBuffer, if_pos hregular.attached]
  exact h.trans (actsAt_publish hregular n)

/-- The next version of an open document is put into the buffer. -/
theorem actsAt_revise (hs : s.Regular) (g : String) (next : Document → Document)
    (hnext : ∀ d, (next d).fileId = d.fileId) (n : Diagnostic) :
    ActsAt g (·.revise g s.timers.now next) (·.reviseNotices g next) s
      (match (s.buffer.get? g).map next with
        | none => (s.note n, (none : Option Document))
        | some d => (s.putNext d, some d)).1 := by
  cases hd : s.buffer.get? g with
  | none =>
    refine .idle _ ?_ ?_ <;>
      simp only [FileState.revise, FileState.reviseNotices, file_document, hd]
  | some d =>
    obtain rfl := hs.filed g d hd
    have hput := actsAt_put s (next d)
    rw [hnext] at hput
    have hsaid := hput.published (n := .contentChanged d.fileId) hs
    rw [← hnext d] at hsaid ⊢
    refine hsaid.congr ?_ ?_
    · simp only [FileState.revise, hnext, file_document, hd, Notice.fileId]
    · simp only [FileState.reviseNotices, hnext, file_document, hd, Notice.fileId,
        FileState.receiveNotices, if_true]

/-- A document is opened. -/
theorem actsAt_openDocument (hs : s.Regular) (g : String) (content : Text) (language : String)
    (version : Int) :
    ActsAt g (·.openDocument g s.timers.now content language version)
      (·.openNotices g content language version) s
      (s.openDocument g content language version).1 := by
  rw [openDocument, Buffer.opening]
  cases hd : s.buffer.get? g with
  | none =>
    have hput := actsAt_put s ⟨g, content, language, version⟩
    refine (hput.published (n := .documentAdded g) hs).congr ?_ ?_
    · simp only [FileState.openDocument, file_document, hd, Notice.fileId]
    · simp only [FileState.openNotices, file_document, hd, Notice.fileId,
        FileState.receiveNotices, if_true]
  | some d =>
    obtain rfl := hs.filed g d hd
    have hput := actsAt_put s (FileState.reopened content language d)
    refine (hput.published (n := .contentChanged d.fileId) hs).congr ?_ ?_
    · simp only [FileState.openDocument, FileState.revise, file_document, hd, Notice.fileId]
    · simp only [FileState.openNotices, FileState.reviseNotices, file_document, hd, Notice.fileId,
        FileState.receiveNotices, if_true]

/-- A document is closed. -/
theorem actsAt_close (hs : s.Regular) (g : String) :
    ActsAt g (fun x => x.step g s.timers.now (.close g))
      (fun x => x.stepNotices g s.timers.now (.close g)) s (s.close g).1 := by
  rw [close]
  cases hd : s.buffer.get? g with
  | none =>
    refine .idle s.diagnostics ?_ ?_
    · simp [FileState.step, file_document, hd]
    · simp [FileState.stepNotices, file_document, hd]
  | some d =>
    refine ((actsAt_remove s g).published (n := .documentRemoved g) hs).congr ?_ ?_
    · simp [FileState.step, file_document, hd, Notice.fileId]
    · simp [FileState.stepNotices, file_document, hd, Notice.fileId, FileState.receiveNotices]

/-! ### Many files -/

/-- Something is done about some files, one after the other. -/
theorem actsOnEach_foldl {act : Session → String → Session} {now : Int}
    {F : FileState → FileState} {N : String → FileState → List Notice}
    (hact : ∀ s g, s.Regular → s.timers.now = now → ActsAt g F (N g) s (act s g))
    {files : List String} (hnodup : files.Nodup) {s : Session} (hs : s.Regular)
    (hnow : s.timers.now = now) :
    ActsOnEach (fun f x => if f ∈ files then F x else x)
      (fun f x => if f ∈ files then N f x else []) s (files.foldl act s) ∧
      (files.foldl act s).timers.now = now := by
  induction files generalizing s with
  | nil => exact ⟨.silent .refl rfl (fun f => rfl) fun f => rfl, hnow⟩
  | cons g files ih =>
    obtain ⟨hg, hfiles⟩ := List.nodup_cons.mp hnodup
    have hfirst := hact s g hs hnow
    obtain ⟨hrest, hrestNow⟩ := ih hfiles (hs.reaches hfirst.reaches) (hfirst.now.trans hnow)
    refine ⟨(hfirst.toActsOnEach.trans hrest).congr (fun f => ?_) fun f => ?_, hrestNow⟩
    · by_cases hf : f = g
      · subst hf
        simp [hg]
      · simp [hf]
    · by_cases hf : f = g
      · subst hf
        simp [hg]
      · simp [hf]

/-- A flush makes the waiting pass over each file. -/
theorem actsOnEach_flush (hs : s.Regular) :
    ActsOnEach (fun _ x => x.flush) (fun f x => x.flushNotices f) s s.flush ∧
      s.flush.timers.now = s.timers.now := by
  obtain ⟨hall, hnow⟩ := actsOnEach_foldl (N := fun g x => x.flushNotices g)
    (fun t g ht _ => actsAt_flushFile ht g) hs.timers hs rfl
  have hdue : ∀ f, f ∉ s.timers.keys → ¬(s.file f).due.isSome = true := fun f hf =>
    Timers.mem_keys_iff.not.mp hf
  refine ⟨hall.congr (fun f => ?_) fun f => ?_, hnow⟩
  · split_ifs with hf
    · rfl
    · exact (if_neg (hdue f hf)).symm
  · split_ifs with hf
    · rfl
    · exact (if_neg (hdue f hf)).symm

/-- A start takes up each document that is open. -/
theorem actsOnEach_start (hs : s.Regular) :
    ActsOnEach (fun _ x => x.observe s.timers.now) (fun f x => x.observeNotices f) s s.start ∧
      s.start.timers.now = s.timers.now := by
  obtain ⟨hall, hnow⟩ := actsOnEach_foldl (F := (·.observe s.timers.now))
    (N := fun g x => x.observeNotices g) (fun t g ht hnow => hnow ▸ actsAt_observe ht g) hs.files hs
    rfl
  have hclosed : ∀ f, f ∉ s.buffer.files → (s.file f).supported = none := by
    intro f hf
    have hnone : s.buffer.get? f = none := Entries.get?_eq_none_iff.mpr hf
    rw [file_supported, hnone, Option.filter_none]
  refine ⟨hall.congr (fun f => ?_) fun f => ?_, hnow⟩
  · split_ifs with hf
    · rfl
    · simp only [FileState.observe, hclosed f hf]
  · split_ifs with hf
    · rfl
    · simp only [FileState.observeNotices, hclosed f hf]

/-- A timer goes off, and its pass is made. -/
def wake (s : Session) (timer : Timer) : Session :=
  { s with timers := s.timers.goOff timer }.scheduledPass timer.key

/-- A timer that goes off leads to a pass over its file. -/
theorem actsOnEach_wake (hs : s.Regular) (timer : Timer) :
    ActsOnEach (fun f x => if f = timer.key then x.passNow else x)
      (fun f x => if f = timer.key then x.passNowNotices f else []) s (s.wake timer) := by
  have hgoOff : ActsOnEach (fun f x => if f = timer.key then { x with due := none } else x)
      (fun _ _ => []) s { s with timers := s.timers.goOff timer } := by
    refine .silent (.single (.goOff s timer)) rfl (fun f => ?_) fun _ => rfl
    rw [file_timers, Timers.due?_goOff]
    split_ifs <;> rfl
  have hpass := actsAt_scheduledPass (hs.reaches hgoOff.reaches) timer.key
  refine (hgoOff.trans hpass.toActsOnEach).congr (fun f => ?_) fun f => ?_
  · split_ifs <;> rfl
  · split_ifs with hf
    · rw [hf]
      rfl
    · rfl

theorem Regular.wake (hs : s.Regular) (timer : Timer) : (s.wake timer).Regular :=
  hs.reaches (actsOnEach_wake hs timer).reaches

/-- The timer that went off is the only one to go. -/
theorem due?_wake (hs : s.Regular) (timer : Timer) (f : String) :
    (s.wake timer).timers.due? f = if f = timer.key then none else s.timers.due? f := by
  have hdue := congrArg FileState.due ((actsOnEach_wake hs timer).file f)
  split_ifs at hdue ⊢
  · rwa [FileState.due_passNow] at hdue
  · exact hdue

/-- The timer that went off is gone, and no other one has come. -/
theorem waiting_wake_lt (hs : s.Regular) {timer : Timer} (hin : timer ∈ s.timers.waiting) :
    (s.wake timer).timers.waiting.length < s.timers.waiting.length := by
  have hsub : (s.wake timer).timers.keys ⊆ (s.timers.cancel timer.key).keys := by
    intro f hf
    rw [Timers.mem_keys_iff] at hf ⊢
    rwa [Timers.due?_cancel, ← due?_wake hs]
  have hlen := ((hs.wake timer).timers.subperm hsub).length_le
  have hcancel := Timers.waiting_cancel_lt hin
  simp only [Timers.keys, List.length_map] at hlen
  omega

/-- A file is passed over if its timer is due, and there is fuel for all such passes. -/
theorem actsOnEach_passUntil (hs : s.Regular) (target : Int) {fuel : Nat}
    (hfuel : s.timers.waiting.length ≤ fuel) :
    ActsOnEach (fun _ x => x.passUntil target) (fun f x => x.passUntilNotices f target) s
      (passUntil target fuel s) := by
  have hidle : ∀ {s : Session}, s.timers.next? target = none →
      ActsOnEach (fun _ x => x.passUntil target) (fun f x => x.passUntilNotices f target) s s := by
    intro s hnext
    have hlate : ∀ f, ¬(s.file f).due.any (· ≤ target) = true := by
      intro f
      cases hdue : (s.file f).due with
      | none => simp
      | some due =>
        have hlt := Timers.lt_due_of_next?_eq_none hnext hdue
        simpa using hlt
    exact .silent .refl rfl (fun f => (if_neg (hlate f)).symm) fun f => if_neg (hlate f)
  induction fuel generalizing s with
  | zero =>
    have hempty : s.timers.waiting = [] := List.length_eq_zero_iff.mp (Nat.le_zero.mp hfuel)
    have hnext : s.timers.next? target = none := by rw [Timers.next?, hempty, List.foldl_nil]
    exact hidle hnext
  | succ fuel ih =>
    rw [passUntil]
    cases hnext : s.timers.next? target with
    | none => exact hidle hnext
    | some timer =>
      obtain ⟨hin, hdue⟩ := Timers.mem_of_next? hnext
      have hfewer := waiting_wake_lt hs hin
      have hrest := ih (hs.wake timer) (by omega)
      have hdue' : ∀ f, f = timer.key → (s.file f).due = some timer.due := fun f hf =>
        hf ▸ Timers.due?_of_mem hs.timers hin
      refine ((actsOnEach_wake hs timer).trans hrest).congr (fun f => ?_) fun f => ?_
      · split_ifs with hf
        · simp [FileState.passUntil, FileState.due_passNow, hdue' f hf, hdue]
        · rfl
      · split_ifs with hf
        · simp [FileState.passUntilNotices, FileState.due_passNow, hdue' f hf, hdue]
        · rfl

/-! ### Operations -/

/-- **Files do not interfere.**  What an operation does to a file and what is said about it follow
from what the session knew about that file. -/
theorem actsOnEach_step (hs : s.Regular) (hop : op.disposes = false) :
    ActsOnEach (fun f x => x.step f s.timers.now op) (fun f x => x.stepNotices f s.timers.now op) s
      (s.step op).1 := by
  cases op with
  | openDocument g content language version =>
    refine (actsAt_openDocument hs g content language version).onEach ?_ ?_ fun f hf x => ?_
    · simp [FileState.step]
    · simp [FileState.stepNotices]
    · simp [FileState.step, FileState.stepNotices, hf]
  | update g content =>
    have hact := actsAt_revise hs g (FileState.updated content) (fun _ => rfl) (.unknownUpdate g)
    refine hact.onEach ?_ ?_ fun f hf x => ?_
    · simp [FileState.step]
    · simp [FileState.stepNotices]
    · simp [FileState.step, FileState.stepNotices, hf]
  | edit g first last text =>
    have hact := actsAt_revise hs g (FileState.edited first last text) (fun _ => rfl)
      (.unknownEdit g)
    refine hact.onEach ?_ ?_ fun f hf x => ?_
    · simp [FileState.step]
    · simp [FileState.stepNotices]
    · simp [FileState.step, FileState.stepNotices, hf]
  | close g =>
    refine (actsAt_close hs g).onEach rfl rfl fun f hf x => ?_
    simp [FileState.step, FileState.stepNotices, hf]
  | plant d =>
    refine (actsAt_put s d).onEach ?_ rfl fun f hf x => ?_
    · simp [FileState.step]
    · simp [FileState.step, FileState.stepNotices, hf]
  | uproot g =>
    refine (actsAt_remove s g).onEach ?_ rfl fun f hf x => ?_
    · simp [FileState.step]
    · simp [FileState.step, FileState.stepNotices, hf]
  | publish n =>
    exact (actsAt_publish hs n).onEach rfl rfl fun f hf x =>
      ⟨FileState.receive_of_ne hf _ x, if_neg hf⟩
  | advance ms =>
    have hclock : ActsOnEach (fun _ x => x) (fun _ _ => []) _ (s.advance ms) :=
      .silent (.single (.setClock (passUntil _ _ s) _)) rfl (fun _ => rfl) fun _ => rfl
    refine ((actsOnEach_passUntil hs _ (Nat.le_refl _)).trans hclock).congr (fun f => rfl)
      fun f => List.append_nil _
  | flush => exact (actsOnEach_flush hs).1
  | flushFile g =>
    refine (actsAt_flushFile hs g).onEach ?_ ?_ fun f hf x => ?_
    · simp [FileState.step]
    · simp [FileState.stepNotices]
    · simp [FileState.step, FileState.stepNotices, hf]
  | start => exact (actsOnEach_start hs).1
  | recompute g =>
    refine (actsAt_recompute hs g).onEach ?_ ?_ fun f hf x => ?_
    · simp [FileState.step]
    · simp [FileState.stepNotices]
    · simp [FileState.step, FileState.stepNotices, hf]
  | setFault fault => exact .silent (.single (.fault s fault)) rfl (fun _ => rfl) fun _ => rfl
  | dispose part => cases hop

/-- **What becomes of a file depends on its own state, the time and the operation alone.** -/
theorem file_step (hs : s.Regular) (hop : op.disposes = false) (f : String) :
    (s.step op).1.file f = (s.file f).step f s.timers.now op :=
  (actsOnEach_step hs hop).file f

/-- **And so does what is heard of it.** -/
theorem heardOf_step (hs : s.Attended) (hop : op.disposes = false) (f : String) :
    (s.step op).1.heardOf f =
      s.heardOf f ++ s.hears ((s.file f).stepNotices f s.timers.now op) :=
  (actsOnEach_step hs.toRegular hop).heard hs f

/-- The time that an operation takes. -/
def Op.elapsed : Op → Int
  | .advance ms => ms
  | _ => 0

/-- The clock is moved by waiting, and by nothing else. -/
theorem now_step (hs : s.Regular) (hop : op.disposes = false) :
    (s.step op).1.timers.now = s.timers.now + op.elapsed := by
  have hstill : ∀ {t : Session}, t.timers.now = s.timers.now →
      t.timers.now = s.timers.now + 0 := fun h => h.trans (Int.add_zero _).symm
  cases op with
  | openDocument g content language version =>
    exact hstill (actsAt_openDocument hs g content language version).now
  | update g content =>
    exact hstill
      (actsAt_revise hs g (FileState.updated content) (fun d => rfl) (.unknownUpdate g)).now
  | edit g first last text =>
    exact hstill
      (actsAt_revise hs g (FileState.edited first last text) (fun d => rfl) (.unknownEdit g)).now
  | close g => exact hstill (actsAt_close hs g).now
  | publish n => exact hstill (actsAt_publish hs n).now
  | advance ms => rfl
  | flush => exact hstill (actsOnEach_flush hs).2
  | flushFile g => exact hstill (actsAt_flushFile hs g).now
  | start => exact hstill (actsOnEach_start hs).2
  | recompute g => exact hstill (actsAt_recompute hs g).now
  | plant d | uproot g | setFault fault => exact hstill rfl
  | dispose part => cases hop

/-- Operations keep a session regular, unless they dispose of something. -/
theorem Regular.step (hs : s.Regular) (hop : op.disposes = false) :
    (s.step op).1.Regular := hs.reaches (follows_step s hop).reaches

theorem run_append (s : Session) (before after : List Op) :
    s.run (before ++ after) = (s.run before).run after := List.foldl_append

/-- So do runs. -/
theorem Regular.run (hs : s.Regular) (hops : ∀ op ∈ ops, op.disposes = false) :
    (s.run ops).Regular := by
  induction ops generalizing s with
  | nil => exact hs
  | cons op ops ih =>
    exact ih (hs.step (hops op (List.mem_cons_self ..)))
      fun op' hop' => hops op' (List.mem_cons_of_mem op hop')

/-- A run leaves the settings alone. -/
theorem config_run (s : Session) (hops : ∀ op ∈ ops, op.disposes = false) :
    (s.run ops).config = s.config := by
  induction ops generalizing s with
  | nil => rfl
  | cons op ops ih =>
    have hrest := ih (s.step op).1 fun op' hop' => hops op' (List.mem_cons_of_mem op hop')
    exact hrest.trans (config_step s (hops op (List.mem_cons_self ..)))

/-- What the steps of a file keep holds of it after every run. -/
theorem file_run {f : String} {P : FileState → Prop} {ok : Op → Prop}
    (hok : ∀ op, ok op → op.disposes = false)
    (hstep : ∀ x now op, ok op → P x → P (x.step f now op)) (hs : s.Regular) (hP : P (s.file f))
    (hops : ∀ op ∈ ops, ok op) : P ((s.run ops).file f) := by
  induction ops generalizing s with
  | nil => exact hP
  | cons op ops ih =>
    have hop := hops op (List.mem_cons_self ..)
    refine ih (hs.step (hok op hop)) ?_ fun op' hop' => hops op' (List.mem_cons_of_mem op hop')
    rw [file_step hs (hok op hop)]
    exact hstep _ _ op hop hP

end Session
end SymbolAtlas
