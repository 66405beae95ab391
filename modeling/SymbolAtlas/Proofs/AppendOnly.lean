import SymbolAtlas.Proofs.Chronicle
import SymbolAtlas.Proofs.Interference
import SymbolAtlas.Proofs.Versions

/-!
# The log is append-only

Over a whole run, whatever is edited, closed, made to fail or disposed of, the log only grows, and
at every moment it is one numbered sequence (`Session.Fresh.history_appendOnly`).  Moments are the
states between two operations and those in which subscribers find the session
(`Session.moments`).

Every event comes from a call in which the history is told of a snapshot, and bears that snapshot's
version.  So versions do not fall along the events of a file unless it is forgotten
(`Session.Tidy.versions_recorded`): what is installed is never older than what was there.
-/

namespace SymbolAtlas

/-! ### Whose symbols events are about -/

/-- What changes between two snapshots of a file has an id of that file. -/
theorem Snapshot.Titled.isIdOf_change {f : String} {b c : Snapshot} (hb : b.Titled f)
    (hc : c.Titled f) {change : Change} (h : change ∈ b.changesTo c) :
    IsIdOf f change.symbolId := by
  have hids : ∀ {s : Snapshot}, s.Titled f → change.symbolId ∈ s.ids →
      IsIdOf f change.symbolId := by
    intro s hs hin
    obtain ⟨x, hx, hid⟩ := List.mem_map.mp hin
    exact hid ▸ isIdOf_of_mem hs.identified hx
  have hchange : change ∈ (b.changesTo c).filter (·.symbolId = change.symbolId) :=
    List.mem_filter.mpr ⟨h, decide_eq_true rfl⟩
  rcases b.changesOf_cases c change.symbolId with ⟨-, -, hnone⟩ | ⟨-, hin, -⟩ | ⟨hin, -⟩ | ⟨hin, -⟩
  · rw [hnone] at hchange
    cases hchange
  · exact hids hc hin
  · exact hids hb hin
  · exact hids hb hin

namespace History

/-- Baselines are snapshots of their files, and events are about symbols of their files. -/
structure Own (h : History) : Prop where
  baselines : ∀ f b, (h.ofFile f).baseline = some b → b.Titled f
  ids : ∀ f, ∀ e ∈ h.eventsOf f, IsIdOf f e.change.symbolId

theorem own_empty : empty.Own := by
  refine ⟨fun f b hb => ?_, fun f e he => ?_⟩
  · simp [ofFile, empty] at hb
  · simp [eventsOf, ofFile, empty] at he

theorem Own.advances {h h' : History} (ho : h.Own) (ha : h.Advances h') : h'.Own := by
  have hlogs : ∀ f, (∀ b, (h'.ofFile f).baseline = some b → b.Titled f) ∧
      ∀ e ∈ (h'.ofFile f).events, IsIdOf f e.change.symbolId := by
    intro f
    have hone := ha.logs f
    have hbaselines := ho.baselines f
    have hids : ∀ e ∈ (h.ofFile f).events, IsIdOf f e.change.symbolId := ho.ids f
    generalize h'.ofFile f = y at hone
    cases hone with
    | same => exact ⟨hbaselines, hids⟩
    | first hc hx =>
      refine ⟨fun b hb => ?_, hids⟩
      rwa [← Option.some.inj hb]
    | @compared b c hc hx n =>
      refine ⟨fun b' hb' => ?_, fun e he => ?_⟩
      · rwa [← Option.some.inj hb']
      · rcases List.mem_append.mp he with he | he
        · exact hids e he
        · have hchange : e.change ∈ b.changesTo c := by
            rw [← map_change_eventsFrom n f c.version (b.changesTo c)]
            exact List.mem_map_of_mem he
          exact (hbaselines b hx).isIdOf_change hc hchange
    | closed => exact ⟨fun b hb => (by cases hb), hids⟩
  exact ⟨fun f => (hlogs f).1, fun f => (hlogs f).2⟩

/-- Without a baseline nothing is recorded. -/
theorem eventsOf_of_advances_empty {h : History} (ha : empty.Advances h) (f : String) :
    h.eventsOf f = [] := by
  have hone := ha.logs f
  rw [eventsOf]
  generalize h.ofFile f = y at hone
  cases hone with
  | same | first | closed => rfl
  | compared hc hx n => cases hx

end History

/-! ### Where events come from -/

theorem History.mem_eventsFrom {n : Nat} {f : String} {version : Int} {cs : List Change}
    {e : Event} (he : e ∈ eventsFrom n f version cs) : e.fileId = f ∧ e.version = version := by
  induction cs generalizing n with
  | nil => cases he
  | cons c cs ih =>
    rcases List.mem_cons.mp he with rfl | he
    · exact ⟨rfl, rfl⟩
    · exact ih he

/-- An event is recorded because the history is told of a snapshot of its file and its version. -/
theorem Call.of_mem_records {call : Call} {e : Event} (he : e ∈ call.records) :
    call.who = .history ∧ call.notice = .snapshotUpdated e.fileId ∧
      ∃ c, call.session.snapshot? e.fileId = some c ∧ c.version = e.version := by
  unfold Call.records at he
  split at he
  · rename_i f hwho hnotice
    unfold Session.comparison at he
    cases hc : call.session.snapshot? f with
    | none => simp [hc] at he
    | some c =>
      rw [hc] at he
      dsimp only at he
      split_ifs at he
      · cases he
      · obtain ⟨rfl, hversion⟩ := History.mem_eventsFrom he
        exact ⟨hwho, hnotice, c, hc, hversion.symm⟩
  · cases he

namespace Session

/-- Who is told of a snapshot during an operation is told because it is installed, unless somebody
else says so. -/
theorem Tidy.installed_of_news {s : Session} (hs : s.Tidy) {op : Op} (hop : op.genuine = true)
    {call : Call} (hcall : call ∈ s.calls op) {f : String}
    (hnotice : call.notice = .snapshotUpdated f) :
    ∃ d c, Happens f (op.forces f) s (s.calls op) (s.step op).1 (.installed d c) ∧
      call.session.Indexed f d c ∧ (s.step op).1.Indexed f d c := by
  obtain ⟨o, ho⟩ := happens_step hs f hop
  have hnews : ∀ {cs : List Call}, call ∈ cs → call ∈ newsOf f call.who cs := fun hin =>
    List.mem_filter.mpr ⟨hin, decide_eq_true ⟨rfl, hnotice⟩⟩
  have hhappens := ho
  generalize s.calls op = cs at hcall ho hhappens
  generalize (s.step op).1 = t at ho hhappens
  cases ho with
  | untouched last calls news =>
    have hin := hnews hcall
    rw [news] at hin
    cases hin
  | forgotten last before after news =>
    have hin := hnews hcall
    rw [news] at hin
    cases hin
  | @installed cs ds _ d c last complete version before after silence news =>
    rcases List.mem_append.mp hcall with hin | hin
    · have hin := hnews hin
      rw [silence] at hin
      cases hin
    · exact ⟨d, c, hhappens, after call hin, last⟩

theorem Op.genuine_or (op : Op) :
    op.genuine = true ∨ (∃ part, op = .dispose part) ∨ ∃ g, op = .publish (.snapshotUpdated g) := by
  cases op with
  | dispose part => exact Or.inr (Or.inl ⟨part, rfl⟩)
  | publish n =>
    cases n with
    | snapshotUpdated g => exact Or.inr (Or.inr ⟨g, rfl⟩)
    | _ => exact Or.inl rfl
  | _ => exact Or.inl rfl

/-- The events that an operation records are of the version that their file has afterwards. -/
theorem Tidy.snapshot_of_records {s : Session} (hs : s.Tidy) (op : Op) {e : Event}
    (he : e ∈ (s.calls op).flatMap Call.records) :
    ∃ c, (s.step op).1.snapshot? e.fileId = some c ∧ c.version = e.version := by
  obtain ⟨call, hcall, he⟩ := List.mem_flatMap.mp he
  obtain ⟨-, hnotice, c, hc, hversion⟩ := Call.of_mem_records he
  rcases op.genuine_or with hop | ⟨part, rfl⟩ | ⟨g, rfl⟩
  · obtain ⟨d, c', -, hfound, hafter⟩ := hs.installed_of_news hop hcall hnotice
    obtain rfl : c = c' := Option.some.inj (hc.symm.trans hfound.snapshot)
    exact ⟨c, hafter.snapshot, hversion⟩
  · cases hcall
  · have haside := aside_announceSnapshot s g
    refine ⟨c, ?_, hversion⟩
    rw [← hc, (haside.calls call hcall).1.snapshot?]
    exact haside.last.snapshot? e.fileId

/-- A snapshot that takes the place of another one is not older. -/
theorem Tidy.version_le_step {s : Session} (hs : s.Tidy) (op : Op) {f : String} {c c' : Snapshot}
    (hc : s.snapshot? f = some c) (hc' : (s.step op).1.snapshot? f = some c') :
    c.version ≤ c'.version := by
  rcases op.genuine_or with hop | ⟨part, rfl⟩ | ⟨g, rfl⟩
  · obtain ⟨o, ho⟩ := happens_step hs f hop
    have hkept : o ≠ .forgotten := by
      rintro rfl
      generalize s.calls op = cs at ho
      cases ho with
      | forgotten last before after news =>
        rw [last.snapshot] at hc'
        cases hc'
    have hv : c.version ∈ s.versionOf f ++ versionsIn f (s.calls op) :=
      List.mem_append_left _ (mem_versionOf.mpr ⟨c, hc, rfl⟩)
    obtain ⟨c₁, hc₁, hle⟩ := (ho.pairwise_versions hkept).2 _ hv
    obtain rfl : c₁ = c' := Option.some.inj (hc₁.symm.trans hc')
    exact hle
  · cases part with
    | history | graph =>
      obtain rfl : c = c' := Option.some.inj (hc.symm.trans hc')
      exact Int.le_refl _
    | indexer | session =>
      simp [Session.step, Session.dispose, disposeIndexer, snapshot?, Index.empty] at hc'
  · rw [← (aside_announceSnapshot s g).last.snapshot? f] at hc
    obtain rfl : c = c' := Option.some.inj (hc.symm.trans hc')
    exact Int.le_refl _

/-! ### Versions over a run -/

/-- Whether a file that has a snapshot has one all through a run.  An operation that forgets the
file leaves it without one. -/
def neverForgets (f : String) (s : Session) : List Op → Bool
  | [] => true
  | op :: ops =>
    ((s.snapshot? f).isNone || ((s.step op).1.snapshot? f).isSome) &&
      neverForgets f (s.step op).1 ops

/-- The events of a file that are recorded during a run. -/
def enteredOf (f : String) (s : Session) (ops : List Op) : List Event :=
  ((s.callsOf ops).flatMap Call.records).filter (·.fileId = f)

theorem enteredOf_cons (f : String) (s : Session) (op : Op) (ops : List Op) :
    s.enteredOf f (op :: ops) =
      ((s.calls op).flatMap Call.records).filter (·.fileId = f) ++
        (s.step op).1.enteredOf f ops := by
  rw [enteredOf, callsOf, callsOver, List.flatMap_append, List.filter_append]
  rfl

/-- **As long as a file is not forgotten, the versions of its events do not fall**, and none is
below that of the snapshot it had at first. -/
theorem Tidy.versions_recorded {s : Session} (hs : s.Tidy) {f : String} {ops : List Op}
    (hkept : neverForgets f s ops = true) :
    ((s.enteredOf f ops).map Event.version).Pairwise (· ≤ ·) ∧
      ∀ c, s.snapshot? f = some c → ∀ e ∈ s.enteredOf f ops, c.version ≤ e.version := by
  induction ops generalizing s with
  | nil => exact ⟨.nil, fun c _ e he => by cases he⟩
  | cons op ops ih =>
    rw [neverForgets, Bool.and_eq_true] at hkept
    obtain ⟨hpairwise, hlow⟩ := ih (hs.step op) hkept.2
    -- what this operation records is of the version that the file has after it
    have hfirst : ∀ e ∈ ((s.calls op).flatMap Call.records).filter (·.fileId = f),
        ∃ c, (s.step op).1.snapshot? f = some c ∧ c.version = e.version := by
      intro e he
      rw [List.mem_filter, decide_eq_true_iff] at he
      obtain ⟨c, hc, hversion⟩ := hs.snapshot_of_records op he.1
      exact ⟨c, he.2 ▸ hc, hversion⟩
    rw [enteredOf_cons]
    refine ⟨?_, fun c hc e he => ?_⟩
    · rw [List.map_append, List.pairwise_append]
      refine ⟨List.pairwise_of_forall_mem_list fun v hv w hw => ?_, hpairwise, fun v hv w hw => ?_⟩
      · obtain ⟨e, he, rfl⟩ := List.mem_map.mp hv
        obtain ⟨e', he', rfl⟩ := List.mem_map.mp hw
        obtain ⟨c, hc, hversion⟩ := hfirst e he
        obtain ⟨c', hc', hversion'⟩ := hfirst e' he'
        obtain rfl : c = c' := Option.some.inj (hc.symm.trans hc')
        omega
      · obtain ⟨e, he, rfl⟩ := List.mem_map.mp hv
        obtain ⟨e', he', rfl⟩ := List.mem_map.mp hw
        obtain ⟨c, hc, hversion⟩ := hfirst e he
        exact hversion ▸ hlow c hc e' he'
    · rcases List.mem_append.mp he with he | he
      · obtain ⟨c', hc', hversion⟩ := hfirst e he
        exact hversion ▸ hs.version_le_step op hc hc'
      · have hsome : ((s.step op).1.snapshot? f).isSome = true := by simpa [hc] using hkept.1
        obtain ⟨c', hc'⟩ := Option.isSome_iff_exists.mp hsome
        exact Int.le_trans (hs.version_le_step op hc hc') (hlow c' hc' e he)

/-! ### Moments -/

/-- The states in which a session is found during a run, in order: before and after every operation
and at every call. -/
def moments (s : Session) : List Op → List Session
  | [] => [s]
  | op :: ops => s :: (s.calls op).map Call.session ++ moments (s.step op).1 ops

section Run

variable {s : Session} {ops : List Op}

theorem chronicles_run (s : Session) (hops : ∀ op ∈ ops, op.pretends = false) :
    Chronicles s (s.callsOf ops) (s.run ops) := by
  induction ops generalizing s with
  | nil => exact .refl s
  | cons op ops ih =>
    rw [List.forall_mem_cons] at hops
    exact (chronicles_step s hops.1).trans (ih _ hops.2)

theorem mem_callsOf {call : Call} (h : call ∈ s.callsOf ops) :
    ∃ before op after, ops = before ++ op :: after ∧ call ∈ (s.run before).calls op := by
  induction ops generalizing s with
  | nil => cases h
  | cons op ops ih =>
    rcases List.mem_append.mp h with h | h
    · exact ⟨[], op, ops, rfl, h⟩
    · obtain ⟨before, op', after, hops, hcall⟩ := ih h
      exact ⟨op :: before, op', after, by rw [hops, List.cons_append], hcall⟩

theorem Tidy.run (hs : s.Tidy) (ops : List Op) : (s.run ops).Tidy := by
  induction ops generalizing s with
  | nil => exact hs
  | cons op ops ih => exact ih (hs.step op)

theorem Tidy.own_run (hs : s.Tidy) (ho : s.history.Own) (ops : List Op) :
    (s.run ops).history.Own := by
  induction ops generalizing s with
  | nil => exact ho
  | cons op ops ih => exact ih (hs.step op) (ho.advances (hs.advances_step op))

/-- **From one moment to a later one the log grows.** -/
theorem Tidy.moments_precede (hs : s.Tidy) (hops : ∀ op ∈ ops, op.pretends = false) :
    (s.moments ops).Pairwise Precedes ∧ (∀ u ∈ s.moments ops, Precedes s u) ∧
      ∀ u ∈ s.moments ops, Precedes u (s.run ops) := by
  induction ops generalizing s with
  | nil =>
    refine ⟨List.pairwise_singleton .., fun u hu => ?_, fun u hu => ?_⟩
    · rw [List.mem_singleton.mp hu]
      exact .of_history rfl
    · rw [List.mem_singleton.mp hu]
      exact .of_history rfl
  | cons op ops ih =>
    rw [List.forall_mem_cons] at hops
    have hgrows := (chronicles_step s hops.1).grows hs.subscribers
    obtain ⟨hrest, hfrom, hto⟩ := ih (hs.step op) hops.2
    have hrun : Precedes (s.step op).1 ((s.step op).1.run ops) :=
      (chronicles_run _ hops.2).precedes
    -- the moments of this operation lead to its end, and those after it come from there
    have hend : ∀ u ∈ s :: (s.calls op).map Call.session, Precedes u (s.step op).1 := by
      intro u hu
      rcases List.mem_cons.mp hu with rfl | hu
      · exact hgrows.whole
      · obtain ⟨call, hcall, rfl⟩ := List.mem_map.mp hu
        exact hgrows.last call hcall
    have hcalls : ∀ u ∈ (s.calls op).map Call.session, Precedes s u := by
      intro u hu
      obtain ⟨call, hcall, rfl⟩ := List.mem_map.mp hu
      exact hgrows.first call hcall
    refine ⟨?_, fun u hu => ?_, fun u hu => ?_⟩
    · refine List.pairwise_append.mpr ⟨List.pairwise_cons.mpr ⟨hcalls, hgrows.between⟩, hrest, ?_⟩
      exact fun u hu v hv => (hend u hu).trans (hfrom v hv)
    · rcases List.mem_append.mp hu with hu | hu
      · rcases List.mem_cons.mp hu with rfl | hu
        · exact .of_history rfl
        · exact hcalls u hu
      · exact hgrows.whole.trans (hfrom u hu)
    · rcases List.mem_append.mp hu with hu | hu
      · exact (hend u hu).trans hrun
      · exact hto u hu

end Run

/-! ### Sessions from the beginning -/

/-- A session begins with an empty log: the first snapshot of a file is not compared with
anything. -/
theorem Fresh.log_empty {config : Config} {s : Session} (h : Fresh config s) :
    s.history.Holds [] ∧ s.heardEvents = [] ∧ s.history.Own := by
  induction h with
  | new clocked documents =>
    have htidy := tidy_blank config clocked documents
    have hadvances := htidy.advances_step .start
    have hstart : Op.start.pretends = false := rfl
    have henters := chronicles_step
      (blank config clocked (.holding documents) [.indexer, .graph, .history]) hstart
    have hholds := henters.holds History.holds_empty
    rw [hholds.eq_nil (History.eventsOf_of_advances_empty hadvances)] at hholds
    exact ⟨hholds, henters.heardEvents_eq htidy.subscribers,
      History.own_empty.advances hadvances⟩
  | listen _ ih => exact ih

/-- What the log of a run is: at every moment one sequence, which only grows and is announced in its
order, with events that tell the snapshots that showed them. -/
structure AppendOnly (s : Session) (ops : List Op) : Prop where
  sequential : ∀ u ∈ s.moments ops, u.history.Sequential
  grows : (s.moments ops).Pairwise fun u v =>
    u.history.log <+: v.history.log ∧ ∀ f, u.history.eventsOf f <+: v.history.eventsOf f
  /-- A listener has heard of all events, but for the one that it is being told of. -/
  announced : .listener ∈ s.subscribers →
    (s.run ops).history.log = (s.run ops).heardEvents ∧ ∀ call ∈ s.callsOf ops,
      call.session.history.log = call.session.heardEvents ++ call.notice.event?.toList
  /-- The log is what the history was told, one call after the other. -/
  recorded : (s.run ops).history.log = (s.callsOf ops).flatMap Call.records
  /-- An event bears the id and the version of the snapshot whose installation shows it, unless
  somebody else announced that snapshot once more. -/
  installed : ∀ e ∈ (s.run ops).history.log, ∃ before op after call c,
    ops = before ++ op :: after ∧ call ∈ (s.run before).calls op ∧ e ∈ call.records ∧
      call.notice = .snapshotUpdated e.fileId ∧ call.session.snapshot? e.fileId = some c ∧
      c.version = e.version ∧
      ((∀ g, op ≠ .publish (.snapshotUpdated g)) → ∃ d, Happens e.fileId (op.forces e.fileId)
        (s.run before) ((s.run before).calls op) ((s.run before).step op).1 (.installed d c))
  versions : ∀ f before stretch after, ops = before ++ stretch ++ after →
    neverForgets f (s.run before) stretch = true →
    ∃ new, (s.run (before ++ stretch)).history.eventsOf f =
        (s.run before).history.eventsOf f ++ new ∧ (new.map Event.version).Pairwise (· ≤ ·)

/-- **The log is append-only**, whatever happens to the session, as long as nobody else announces
events. -/
theorem Fresh.history_appendOnly {config : Config} {s : Session} (hs : Fresh config s)
    {ops : List Op} (hops : ∀ op ∈ ops, op.pretends = false) : s.AppendOnly ops := by
  have htidy := hs.tidy_ordered.1
  obtain ⟨hholds, hheard, hown⟩ := hs.log_empty
  have hchronicles := chronicles_run s hops
  have hrun : (s.run ops).history.Holds ((s.callsOf ops).flatMap Call.records) :=
    hchronicles.holds hholds
  obtain ⟨hpairwise, hfrom, hto⟩ := htidy.moments_precede hops
  have hlogs : ∀ u ∈ s.moments ops, ∃ log, u.history.Holds log := by
    intro u hu
    obtain ⟨log, hlog⟩ := hfrom u hu [] hholds
    exact ⟨_, hlog⟩
  refine ⟨fun u hu => ?_, ?_, fun hl => ?_, hrun.log_eq, fun e he => ?_, ?_⟩
  · obtain ⟨log, hlog⟩ := hlogs u hu
    refine hlog.sequential fun e he => ?_
    -- what is in the log now is there at the end
    obtain ⟨rest, hend⟩ := hto u hu _ hlog
    exact (htidy.own_run hown ops).ids _ e (hend.mem_eventsOf (List.mem_append_left _ he))
  · refine hpairwise.imp_of_mem fun {u v} hu hv huv => ?_
    obtain ⟨log, hlog⟩ := hlogs u hu
    obtain ⟨rest, hlater⟩ := huv _ hlog
    refine ⟨?_, fun f => ?_⟩
    · rw [hlog.log_eq, hlater.log_eq]
      exact List.prefix_append ..
    · rw [hlog.events, hlater.events, List.filter_append]
      exact List.prefix_append ..
  · obtain ⟨hcalls, hlast⟩ := hchronicles.inStep htidy.subscribers hl (hheard ▸ hholds)
    exact ⟨hlast.log_eq, fun call hcall => (hcalls call hcall).log_eq⟩
  · rw [hrun.log_eq] at he
    obtain ⟨call, hin, hrecords⟩ := List.mem_flatMap.mp he
    obtain ⟨before, op, after, rfl, hcall⟩ := mem_callsOf hin
    obtain ⟨-, hnotice, c, hc, hversion⟩ := Call.of_mem_records hrecords
    refine ⟨before, op, after, call, c, rfl, hcall, hrecords, hnotice, hc, hversion, ?_⟩
    intro hother
    have hop : op.genuine = true := by
      rcases op.genuine_or with hop | ⟨part, rfl⟩ | ⟨g, rfl⟩
      · exact hop
      · cases hcall
      · exact absurd rfl (hother g)
    obtain ⟨d, c', hhappens, hfound, -⟩ :=
      (htidy.run before).installed_of_news hop hcall hnotice
    obtain rfl : c = c' := Option.some.inj (hc.symm.trans hfound.snapshot)
    exact ⟨d, hhappens⟩
  · rintro f before stretch after rfl hkept
    rw [List.forall_mem_append, List.forall_mem_append] at hops
    have hbefore := (chronicles_run s hops.1.1).holds hholds
    have hstretch := (chronicles_run (s.run before) hops.1.2).holds hbefore
    refine ⟨(s.run before).enteredOf f stretch, ?_,
      ((htidy.run before).versions_recorded hkept).1⟩
    rw [run_append, hstretch.events, hbefore.events, List.filter_append]
    rfl

/-- Two files are edited in turn.  A comparison fails, a file is closed and opened with a lower
version, and the graph and then the history are disposed of. -/
def eventful : List Op :=
  [.openDocument "a" "function f() {}".toList "typescript" 5,
    .openDocument "b" "function f() {}".toList "typescript" 1,
    .update "a" "function g() {}".toList, .update "b" [],
    .setFault (some .changes), .update "a" "function h() {}".toList, .setFault none,
    .update "a" [], .close "a", .openDocument "a" "function k() {}".toList "typescript" 1,
    .update "a" [], .dispose .graph, .update "b" "function f() {}".toList, .dispose .history,
    .update "b" []]

/-- Five events are recorded and heard of.  The version of "a" falls where it is closed. -/
theorem eventful_appendOnly :
    let s := (new .default false (.holding [])).subscribe .listener
    (s.run eventful).heardEvents.map (fun e => (e.number, e.fileId, e.version)) =
        [(1, "a", 6), (2, "b", 2), (3, "a", 8), (4, "a", 2), (5, "b", 3)] ∧
      neverForgets "a" s (eventful.take 8) = true ∧ neverForgets "a" s eventful = false ∧
      neverForgets "b" s eventful = true ∧ s.AppendOnly eventful := by
  have hfresh : Fresh .default ((new .default false (.holding [])).subscribe .listener) :=
    .listen (.new false [])
  exact ⟨by decide +kernel, by decide +kernel, by decide +kernel, by decide +kernel,
    hfresh.history_appendOnly (by decide)⟩

end Session
end SymbolAtlas
