import SymbolAtlas.Command.Run
import SymbolAtlas.Proofs.AppendOnly
import SymbolAtlas.Proofs.SettingBounds

/-!
# Comparing two files

The command that compares two files opens the first one and lets the second text take its place.
What it then prints depends on which of the two texts are indexed (`Comparison`): both, and the
events are the changes between their snapshots; neither, and there is no snapshot; or only one of
them, and there is a snapshot but nothing to compare it with.  The command looks for a snapshot
only, so in the last case it says that nothing has changed (`Command.unchanged_of_run`).
-/

namespace SymbolAtlas

/-! ### The snapshots of two texts -/

/-- A text is indexed if its language is supported and it is not too long. -/
def Config.Indexes (config : Config) (language : String) (t : Text) : Prop :=
  config.isSupported language = true ∧ (t.length : Int) ≤ config.maxDocumentChars

/-- With the ids of a lineage, a document has a snapshot that follows another one. -/
def Lineage.Makes (l : Lineage) (d : Document) (previous : Option Snapshot) (c : Snapshot)
    (l' : Lineage) : Prop :=
  ∃ ids, l.assign (Outline.ofText d.content).declarations previous = (.ok ids, l') ∧
    c = .ofOutline d (Outline.ofText d.content) ids

/-- The snapshots of two texts as the first two versions of a file.  The ids of the first one come
from a new lineage, and those of the second one are reconciled with them. -/
def Config.Successive (config : Config) (f language : String) (before after : Text)
    (first second : Snapshot) : Prop :=
  ∃ l l', (Lineage.new f config.maxRetiredIds).Makes ⟨f, before, language, 1⟩ none first l ∧
    l.Makes ⟨f, after, language, 2⟩ (some first) second l'

/-- What is left of two texts that a file has one after the other: a snapshot, and the changes
between two snapshots. -/
inductive Comparison (config : Config) (f language : String) (before after : Text) :
    Option Snapshot → List Change → Prop
  | neither (hbefore : ¬ config.Indexes language before)
      (hafter : ¬ config.Indexes language after) :
      Comparison config f language before after none []
  | one (hone : ¬ (config.Indexes language before ↔ config.Indexes language after))
      (c : Snapshot) : Comparison config f language before after (some c) []
  | both {first second : Snapshot} (hbefore : config.Indexes language before)
      (hafter : config.Indexes language after)
      (h : config.Successive f language before after first second) :
      Comparison config f language before after (some second) (first.changesTo second)

/-! ### A file without a clock -/

namespace FileState

/-- The document is `d`, and the indexer has taken the file up. -/
def follow (x : FileState) (d : Document) : FileState :=
  { x with document := some d, tracked := true }

/-- No clock is set, and nothing is made to fail. -/
structure Unclocked (config : Config) (x : FileState) : Prop where
  config : x.config = config
  clocked : x.clocked = false
  fault : x.fault = none
  due : x.due = none

/-- A document counts if its language is supported. -/
theorem supported_eq {x : FileState} {d : Document} (hd : x.document = some d) :
    x.supported = if x.config.isSupported d.language then some d else none := by
  rw [supported, hd, Option.filter_some]

namespace Unclocked

variable {config : Config} {x : FileState} {d : Document} (hx : x.Unclocked config)
  (hs : config.isSupported d.language = true)

include hx hs

theorem supported_follow : (x.follow d).supported = some d := by
  have hconfig : (x.follow d).config = config := hx.config
  rw [supported_eq rfl, hconfig, if_pos hs]

/-- A document that is too long is not passed over. -/
theorem pass_of_long (hlong : config.maxDocumentChars < d.length) :
    (x.follow d).pass = x.follow d := by
  have hlong' : (x.follow d).config.maxDocumentChars < d.length := hx.config ▸ hlong
  rw [pass, hx.supported_follow hs]
  exact if_pos hlong'

/-- Otherwise its snapshot is installed. -/
theorem pass_of_makes (hfits : d.length ≤ config.maxDocumentChars)
    (hnew : ∀ current, x.snapshot = some current → current.version < d.version) {c : Snapshot}
    {l : Lineage}
    (h : (x.lineage.getD (.new d.fileId config.maxRetiredIds)).Makes d x.snapshot c l) :
    (x.follow d).pass = (x.follow d).installed c l := by
  obtain ⟨ids, hassign, rfl⟩ := h
  rw [← hx.config] at hassign hfits
  have hinstall : (x.follow d).install d =
      (x.follow d).installed (.ofOutline d (Outline.ofText d.content) ids) l := by
    have hfault : (x.follow d).fault ≠ some .outline := by simp [follow, hx.fault]
    rw [install, if_neg hfault, show (x.follow d).assign d = (.ok ids, l) from hassign]
    exact installed_eq _ _ l
  have hfits' : ¬ (x.follow d).config.maxDocumentChars < d.length := Int.not_lt.mpr hfits
  rw [pass, hx.supported_follow hs]
  dsimp only
  rw [if_neg hfits']
  cases hc : (x.follow d).snapshot with
  | none => exact hinstall
  | some current =>
    dsimp only
    rw [if_neg (Int.not_lt.mpr (Int.le_of_lt (hnew current hc)))]
    exact hinstall

/-- A supported document that is new to the indexer is passed over at once. -/
theorem receive_eq_pass
    (hnew : ∀ current, x.snapshot = some current → current.version < d.version) (f : String)
    (now : Int) :
    { x with document := some d }.receive f now (.documentAdded f) = (x.follow d).pass ∧
      { x with document := some d }.receive f now (.contentChanged f) = (x.follow d).pass := by
  have hschedule : (x.follow d).schedule now = (x.follow d).pass := by
    have hidle : { x.follow d with due := none } = x.follow d := by rw [← hx.due]; rfl
    have hclocked : (x.follow d).clocked = false := hx.clocked
    rw [schedule, hclocked, passNow, hidle]
    rcases (x.follow d).scheduledPass_cases with ⟨-, d', current, hd', hc, hversion⟩ | hpass
    · obtain rfl : d = d' := Option.some.inj hd'
      exact absurd hversion (Int.ne_of_gt (hnew current hc))
    · exact hpass
  have hobserve : { x with document := some d }.observe now = (x.follow d).pass := by
    rw [observe, supported_eq rfl, if_pos (hx.config ▸ hs), ← hschedule]
    rfl
  constructor
  · rw [receive, if_pos rfl, hobserve]
  · rw [receive, if_pos rfl]
    split_ifs with htracked
    · rw [← hschedule, follow, ← htracked]
    · exact hobserve

end Unclocked

section Versions

variable {config : Config} {f language : String} {before after : Text}

/-- A file without a clock that is opened with one text and then gets another one. -/
def versions (config : Config) (f language : String) (before after : Text) (now now' : Int) :
    FileState :=
  ((unread config false none).step f now (.openDocument f before language 1)).step f now'
    (.update f after)

/-- A file that is not taken up stays without a snapshot. -/
theorem versions_of_unsupported (h : config.isSupported language = false) (now now' : Int) :
    versions config f language before after now now' =
      unread config false (some ⟨f, after, language, 2⟩) := by
  have hobserve : ∀ (d : Document) (now : Int), d.language = language →
      (unread config false (some d)).observe now = unread config false (some d) := by
    rintro d now rfl
    rw [observe, supported_eq rfl, if_neg (by simp [unread, h])]
  have hopen : (unread config false (some ⟨f, before, language, 1⟩)).receive f now
      (.documentAdded f) = unread config false (some ⟨f, before, language, 1⟩) := by
    rw [receive, if_pos rfl, hobserve _ now rfl]
  have hupdate : (unread config false (some ⟨f, after, language, 2⟩)).receive f now'
      (.contentChanged f) = unread config false (some ⟨f, after, language, 2⟩) := by
    rw [receive, if_pos rfl]
    exact hobserve _ now' rfl
  have hfirst : (unread config false none).step f now (.openDocument f before language 1) =
      unread config false (some ⟨f, before, language, 1⟩) := by
    rw [step, if_pos rfl]
    exact hopen
  rw [versions, hfirst, step, if_pos rfl]
  exact hupdate

/-- If the language is supported, the file is passed over with each of the two texts. -/
theorem versions_eq (h : config.isSupported language = true) (now now' : Int) {x : FileState}
    (hopen : ((unread config false none).follow ⟨f, before, language, 1⟩).pass = x)
    (hx : x.Unclocked config) (hd : x.document = some ⟨f, before, language, 1⟩)
    (hversion : ∀ c, x.snapshot = some c → c.version < 2) :
    versions config f language before after now now' =
      (x.follow ⟨f, after, language, 2⟩).pass := by
  have hunread : (unread config false none).Unclocked config := ⟨rfl, rfl, rfl, rfl⟩
  have hfirst : (unread config false none).step f now (.openDocument f before language 1) = x := by
    have hreceive := (hunread.receive_eq_pass (d := ⟨f, before, language, 1⟩) h
      (fun _ hc => by cases hc) f now).1
    rw [step, if_pos rfl, ← hopen, ← hreceive]
    rfl
  have hreceive := (hx.receive_eq_pass (d := ⟨f, after, language, 2⟩) h hversion f now').2
  rw [versions, hfirst, step, if_pos rfl, revise, hd]
  exact hreceive

end Versions

end FileState

/-! ### The outcome of a comparison -/

/-- With room for ids there is always a snapshot. -/
theorem Lineage.exists_makes {l : Lineage} (hcap : 0 ≤ l.capacity) (d : Document)
    (previous : Option Snapshot) :
    ∃ c l', l.Makes d previous c l' ∧ c.version = d.version ∧ l'.capacity = l.capacity := by
  obtain ⟨ids, l', hassign, hassigned⟩ := assign_outline hcap d.content previous
  exact ⟨_, l', ⟨ids, hassign, rfl⟩, rfl, hassigned.capacity⟩

/-- **What is left of two texts** follows from which of them are indexed. -/
theorem FileState.comparison_versions {config : Config} (hcap : 0 ≤ config.maxRetiredIds)
    (f language : String) (before after : Text) (now now' : Int) :
    ∃ changes, Comparison config f language before after
        (versions config f language before after now now').snapshot changes ∧
      (versions config f language before after now now').events =
        changes.map fun change => (2, change) := by
  cases hs : config.isSupported language with
  | false =>
    have hnone : ∀ t, ¬ config.Indexes language t := by
      rintro t ⟨h, -⟩
      rw [hs] at h
      cases h
    rw [versions_of_unsupported hs]
    exact ⟨[], .neither (hnone before) (hnone after), rfl⟩
  | true =>
    have hindexes : ∀ t, config.Indexes language t ↔ (t.length : Int) ≤ config.maxDocumentChars :=
      fun t => and_iff_right hs
    have hunread : (unread config false none).Unclocked config := ⟨rfl, rfl, rfl, rfl⟩
    by_cases hbefore : (before.length : Int) ≤ config.maxDocumentChars
    · obtain ⟨first, l, hfirst, hversion, hl⟩ := Lineage.exists_makes
        (l := .new f config.maxRetiredIds) hcap ⟨f, before, language, 1⟩ none
      have hopen := hunread.pass_of_makes (d := ⟨f, before, language, 1⟩) hs hbefore
        (fun _ hc => by cases hc) hfirst
      have hold : ∀ c, some first = some c → c.version < 2 := by
        intro c hc
        rw [← Option.some.inj hc, hversion]
        exact Int.lt_succ 1
      have hinstalled : (((unread config false none).follow
          ⟨f, before, language, 1⟩).installed first l).Unclocked config := ⟨rfl, rfl, rfl, rfl⟩
      rw [versions_eq hs now now' hopen hinstalled rfl hold]
      by_cases hafter : (after.length : Int) ≤ config.maxDocumentChars
      · obtain ⟨second, l', hsecond, hversion', -⟩ := Lineage.exists_makes (l := l)
          (hl ▸ hcap) ⟨f, after, language, 2⟩ (some first)
        rw [hinstalled.pass_of_makes (d := ⟨f, after, language, 2⟩) hs hafter hold hsecond]
        refine ⟨_, .both ((hindexes _).mpr hbefore) ((hindexes _).mpr hafter)
          ⟨l, l', hfirst, hsecond⟩, ?_⟩
        simp [installed, follow, unread, changesWith, hversion']
      · -- the second text is skipped, and the snapshot of the first one stays
        rw [hinstalled.pass_of_long (d := ⟨f, after, language, 2⟩) hs (Int.not_le.mp hafter)]
        refine ⟨[], .one ?_ first, rfl⟩
        simp [hindexes, hbefore, hafter]
    · have hopen := hunread.pass_of_long (d := ⟨f, before, language, 1⟩) hs
        (Int.not_le.mp hbefore)
      have hfollowed : ((unread config false none).follow
          ⟨f, before, language, 1⟩).Unclocked config := ⟨rfl, rfl, rfl, rfl⟩
      have hold : ∀ c : Snapshot, none = some c → c.version < 2 := fun _ hc => by cases hc
      rw [versions_eq hs now now' hopen hfollowed rfl hold]
      by_cases hafter : (after.length : Int) ≤ config.maxDocumentChars
      · -- the second text is the first one with a snapshot, so nothing is compared
        obtain ⟨c, l, hc, -, -⟩ := Lineage.exists_makes
          (l := .new f config.maxRetiredIds) hcap ⟨f, after, language, 2⟩ none
        rw [hfollowed.pass_of_makes (d := ⟨f, after, language, 2⟩) hs hafter hold hc]
        refine ⟨[], .one ?_ c, rfl⟩
        simp [hindexes, hbefore, hafter]
      · rw [hfollowed.pass_of_long (d := ⟨f, after, language, 2⟩) hs (Int.not_le.mp hafter)]
        exact ⟨[], .neither (by simpa [hindexes] using hbefore) (by simpa [hindexes] using hafter),
          rfl⟩

/-! ### Numbered events -/

namespace History

/-- Events are known by their numbers, their file and what they tell. -/
theorem eq_eventsFrom {f : String} {version : Int} {events : List Event} {changes : List Change}
    {n : Nat} (hnumbers : events.map Event.number = List.range' (n + 1) events.length)
    (hfiles : ∀ e ∈ events, e.fileId = f)
    (hchanges : events.map (fun e => (e.version, e.change)) =
      changes.map fun change => (version, change)) :
    events = eventsFrom n f version changes := by
  induction changes generalizing events n with
  | nil => exact List.map_eq_nil_iff.mp hchanges
  | cons change changes ih =>
    obtain ⟨⟨number, fileId, v, c⟩, rest, rfl, hone, hrest⟩ := List.map_eq_cons_iff.mp hchanges
    rw [List.length_cons, List.range'_succ, List.map_cons, List.cons.injEq] at hnumbers
    rw [List.forall_mem_cons] at hfiles
    obtain ⟨rfl, rfl⟩ := Prod.mk.inj hone
    obtain ⟨rfl, hnumbers⟩ := hnumbers
    obtain ⟨rfl, hfiles⟩ := hfiles
    rw [eventsFrom, ← ih hnumbers hfiles hrest]

/-- If only one file has events, its events are the log. -/
theorem Holds.eventsOf_eq {h : History} {log : List Event} (hl : h.Holds log) {f : String}
    (hothers : ∀ g, g ≠ f → h.eventsOf g = []) : h.eventsOf f = log := by
  rw [hl.events]
  refine List.filter_eq_self.mpr fun e he => decide_eq_true ?_
  refine Classical.byContradiction fun hne => ?_
  have hin := hl.mem_eventsOf he
  rw [hothers e.fileId hne] at hin
  cases hin

end History

namespace Session

/-- A session without a clock in which a file is opened with one text and gets another one. -/
def comparing (config : Config) (f language : String) (before after : Text) : Session :=
  (Session.new config false (.new false)).run
    [.openDocument f before language 1, .update f after]

theorem step_openDocument (s : Session) (f : String) (content : Text) (language : String)
    (version : Int) : (s.step (.openDocument f content language version)).1 =
      (s.openDocument f content language version).1 := rfl

theorem step_update (s : Session) (f : String) (content : Text) :
    (s.step (.update f content)).1 = (s.update f content).1 := rfl

theorem events_file (s : Session) (f : String) :
    (s.file f).events = (s.history.eventsOf f).map fun e => (e.version, e.change) := rfl

section Comparing

variable (config : Config) (f language : String) (before after : Text)

/-- Two versions are compared by opening the one and changing it to the other. -/
theorem comparing_eq : comparing config f language before after =
    (((Session.new config false (.new false)).openDocument f before language 1).1.update f
      after).1 := by
  rw [← step_openDocument, ← step_update]
  rfl

theorem fresh_new : Fresh config (Session.new config false (.new false)) := .new false []

/-- The session knows the two versions of the file and nothing else. -/
theorem file_comparing (g : String) :
    ∃ now now', (comparing config f language before after).file g =
      if g = f then FileState.versions config f language before after now now'
      else .unread config false none := by
  have hregular := (fresh_new config).regular
  have hopen : (Op.openDocument f before language 1).disposes = false := rfl
  have hupdate : (Op.update f after).disposes = false := rfl
  have hunread : (Session.new config false (.new false)).file g = .unread config false none := rfl
  have hfirst := file_step hregular hopen g
  have hsecond := file_step (hregular.step hopen) hupdate g
  rw [hfirst, hunread] at hsecond
  by_cases hg : g = f
  · subst hg
    exact ⟨_, _, hsecond.trans (if_pos rfl).symm⟩
  · refine ⟨0, 0, hsecond.trans ?_⟩
    simp [FileState.step, hg, Ne.symm hg]

/-- Only the file that is opened has events, and they are numbered from 1 on. -/
theorem holds_comparing : (comparing config f language before after).history.Holds
    ((comparing config f language before after).history.eventsOf f) := by
  have hops : ∀ op ∈ [Op.openDocument f before language 1, .update f after],
      op.pretends = false := by simp [Op.pretends]
  have hholds := (chronicles_run (Session.new config false (.new false)) hops).holds
    (fresh_new config).log_empty.1
  have hlog := hholds.eventsOf_eq (f := f) fun g hg => by
    obtain ⟨now, now', hfile⟩ := file_comparing config f language before after g
    have hevents := congrArg FileState.events hfile
    rw [if_neg hg, events_file, FileState.unread, List.map_eq_nil_iff] at hevents
    exact hevents
  rw [← hlog] at hholds
  exact hholds

/-- **A comparison in a session**: what snapshot the file has, and which events. -/
theorem comparison_comparing (hcap : 0 ≤ config.maxRetiredIds) :
    ∃ changes, Comparison config f language before after
        ((comparing config f language before after).snapshot? f) changes ∧
      (comparing config f language before after).history.eventsOf f =
        History.eventsFrom 0 f 2 changes := by
  have hholds := holds_comparing config f language before after
  obtain ⟨now, now', hfile⟩ := file_comparing config f language before after f
  rw [if_pos rfl] at hfile
  obtain ⟨changes, hcomparison, hevents⟩ :=
    FileState.comparison_versions hcap f language before after now now'
  rw [← hfile, file_snapshot] at hcomparison
  rw [← hfile, events_file] at hevents
  refine ⟨changes, hcomparison, History.eq_eventsFrom ?_ ?_ hevents⟩
  · have hlength := congrArg List.length hholds.numbers
    rw [List.length_map, List.length_range'] at hlength
    rw [hholds.numbers, ← hlength]
  · intro e he
    have hin := hholds.events f ▸ he
    exact of_decide_eq_true (List.mem_filter.mp hin).2

theorem config_comparing : (comparing config f language before after).config = config :=
  (config_run _ (by simp [Op.disposes])).trans (fresh_new config).config

end Comparing

end Session

/-! ### The command -/

/-- The spans of the symbols that the last `limit` events touch, as far as a snapshot has them, each
span once. -/
def Snapshot.touched (c : Snapshot) (events : List Event) (limit : Int) : List Span :=
  ((events.drop (events.length - limit.toNat)).filterMap fun e =>
    (c.symbol? e.change.symbolId).map Symbol.span).eraseDups

namespace Command

/-- The program is asked for the changes from one file to another, and both can be read. -/
structure Compares (r : Request) (old new : String) (before after : Text) : Prop where
  arguments : ∃ args, r.arguments = "diff" :: args ∧
    args.filter (fun a => !isVerboseFlag a) = [old, new]
  noHelp : r.arguments.any isHelpFlag = false
  before : fileText r (Path.ofString old) = .ok (some before)
  after : fileText r (Path.ofString new) = .ok (some after)

/-- The lines about events between two files and about the places in the second that they touch. -/
def changeLines (r : Request) (config : Config) (oldPath newPath : Path) (c : Snapshot)
    (events : List Event) : List String :=
  Report.header r.width (oldPath.name ++ " -> " ++ newPath.name) ++
    Report.historyLines r.width events ++
    Report.recentLines r.width (c.touched events config.recentChangesLimit)

/-- The lines that say that nothing has changed. -/
def unchangedLines (r : Request) (oldPath newPath : Path) : List String :=
  Report.header r.width (oldPath.name ++ " -> " ++ newPath.name) ++
    Report.textLines r.width "No symbol changes."

theorem changeLines_nil (r : Request) (config : Config) (oldPath newPath : Path) (c : Snapshot) :
    changeLines r config oldPath newPath c [] = unchangedLines r oldPath newPath := by
  simp [changeLines, unchangedLines, Report.historyLines, Report.recentLines, Snapshot.touched]

/-- The status and the output for what is left of two texts. -/
def told (r : Request) (config : Config) (oldPath newPath : Path) (changes : List Change) :
    Option Snapshot → Nat × List String
  | none => (1, notIndexed r oldPath.text)
  | some c =>
    (0, changeLines r config oldPath newPath c (History.eventsFrom 0 oldPath.text 2 changes))

section Compare

variable {r : Request} {old new : String} {before after : Text} {config : Config}

/-- The command ends well if its parts do. -/
theorem run_eq_ok_iff (h : Compares r old new before after) {outcome : Outcome} :
    run r = .ok outcome ↔ ∃ level done,
      logLevel r (r.arguments.any isVerboseFlag) = .ok level ∧ diff r [old, new] = .ok done ∧
      outcome = ⟨done.status, done.output,
        log r (r.arguments.any isVerboseFlag) level done.session, level⟩ := by
  obtain ⟨args, harguments, hargs⟩ := h.arguments
  have hdispatch : ∀ verbose, dispatch r verbose "diff" [old, new] = diff r [old, new] := by
    intro verbose
    rw [dispatch, if_neg (by decide), if_pos rfl]
  unfold run
  have hhelp := h.noHelp
  rw [harguments] at hhelp ⊢
  dsimp only
  rw [if_neg (by simp [hhelp]), hargs, hdispatch]
  cases logLevel r (("diff" :: args).any isVerboseFlag) with
  | error e => simp
  | ok level =>
    cases diff r [old, new] with
    | error e => simp
    | ok done => simp [eq_comm]

/-- A quiet time that does not fit is an error. -/
theorem diff_of_not_delayFits (h : Compares r old new before after)
    (hload : r.settings.load = .ok config) (hdelay : config.delayFits = false) :
    diff r [old, new] = .error .delay := by
  have hsession : session r = .error .delay := by simp [session, hload, hdelay]
  unfold diff
  simp only [h.before, h.after, hsession]

/-- **Otherwise the comparison is told.** -/
theorem diff_of_delayFits (h : Compares r old new before after)
    (hload : r.settings.load = .ok config) (hdelay : config.delayFits = true) :
    ∃ shown changes session,
      Comparison config (Path.ofString old).text (Path.ofString old).language before after shown
        changes ∧
      diff r [old, new] =
        .ok ⟨(told r config (Path.ofString old) (Path.ofString new) changes shown).1,
          (told r config (Path.ofString old) (Path.ofString new) changes shown).2, session⟩ := by
  obtain ⟨fields, base, o, -, hbase, -, hconfig⟩ := SettingSources.load_eq_ok_iff.mp hload
  have hcap : 0 ≤ config.maxRetiredIds := hconfig ▸ (Config.valid_ofFields hbase).maxRetiredIds
  obtain ⟨changes, hcomparison, hevents⟩ := Session.comparison_comparing config
    (Path.ofString old).text (Path.ofString old).language before after hcap
  have hlimit := Session.config_comparing config (Path.ofString old).text
    (Path.ofString old).language before after
  have hsession : session r = .ok (.new config false (.new false)) := by
    simp [session, hload, hdelay]
  rw [Session.comparing_eq] at hcomparison hevents hlimit
  generalize Session.new config false (.new false) = start at hsession hcomparison hevents hlimit
  unfold diff
  simp only [h.before, h.after, hsession, openFile]
  generalize ((start.openDocument (Path.ofString old).text before (Path.ofString old).language
    1).1.update (Path.ofString old).text after).1 = s at hcomparison hevents hlimit ⊢
  refine ⟨_, changes, some s, hcomparison, ?_⟩
  cases hc : s.snapshot? (Path.ofString old).text with
  | none => rfl
  | some c =>
    have hrecent : s.recentChanges (Path.ofString old).text =
        c.touched (s.history.eventsOf (Path.ofString old).text) config.recentChangesLimit := by
      rw [Session.recentChanges, Session.recent, hc, hlimit]
      rfl
    dsimp only
    rw [hrecent, hevents]
    rfl

/-- Nothing breaks the program off before two files are compared: the level of the log is known, and
the clock can be set. -/
def Starts (r : Request) (config : Config) : Prop :=
  (∃ level, logLevel r (r.arguments.any isVerboseFlag) = .ok level) ∧ config.delayFits = true

/-- So whether the command ends well is known beforehand. -/
theorem exists_run_iff (h : Compares r old new before after)
    (hload : r.settings.load = .ok config) :
    (∃ outcome, run r = .ok outcome) ↔ Starts r config := by
  constructor
  · rintro ⟨outcome, hrun⟩
    obtain ⟨level, done, hlevel, hdiff, -⟩ := (run_eq_ok_iff h).mp hrun
    refine ⟨⟨level, hlevel⟩, ?_⟩
    cases hdelay : config.delayFits with
    | true => rfl
    | false =>
      rw [diff_of_not_delayFits h hload hdelay] at hdiff
      cases hdiff
  · rintro ⟨⟨level, hlevel⟩, hdelay⟩
    obtain ⟨shown, changes, session, -, hdiff⟩ := diff_of_delayFits h hload hdelay
    exact ⟨_, (run_eq_ok_iff h).mpr ⟨level, _, hlevel, hdiff, rfl⟩⟩

/-- What the program says is what is left of the two texts. -/
theorem told_of_run (h : Compares r old new before after) (hload : r.settings.load = .ok config)
    {outcome : Outcome} (hrun : run r = .ok outcome) :
    ∃ shown changes, Comparison config (Path.ofString old).text (Path.ofString old).language before
        after shown changes ∧
      told r config (Path.ofString old) (Path.ofString new) changes shown =
        (outcome.status, outcome.output) := by
  obtain ⟨-, hdelay⟩ := (exists_run_iff h hload).mp ⟨outcome, hrun⟩
  obtain ⟨level, done, -, hdiff, rfl⟩ := (run_eq_ok_iff h).mp hrun
  obtain ⟨shown, changes, session, hcomparison, hdiff'⟩ := diff_of_delayFits h hload hdelay
  obtain rfl := Except.ok.inj (hdiff.symm.trans hdiff')
  exact ⟨shown, changes, hcomparison, rfl⟩

/-- If one text is indexed and the other one is not, the program says that nothing has changed. -/
theorem unchanged_of_run (h : Compares r old new before after)
    (hload : r.settings.load = .ok config) {outcome : Outcome} (hrun : run r = .ok outcome)
    (hone : ¬ (config.Indexes (Path.ofString old).language before ↔
      config.Indexes (Path.ofString old).language after)) :
    outcome.status = 0 ∧
      outcome.output = unchangedLines r (Path.ofString old) (Path.ofString new) := by
  obtain ⟨shown, changes, hcomparison, htold⟩ := told_of_run h hload hrun
  cases hcomparison with
  | neither hbefore hafter => exact absurd (iff_of_false hbefore hafter) hone
  | one _ c =>
    rw [told, History.eventsFrom, changeLines_nil] at htold
    obtain ⟨hstatus, houtput⟩ := Prod.mk.inj htold
    exact ⟨hstatus.symm, houtput.symm⟩
  | both hbefore hafter => exact absurd (iff_of_true hbefore hafter) hone

end Compare

/-- An outcome that leaves out no change from one text to another: it warns that the file is not
indexed, or it lists the changes between the snapshots of the two texts, and it does not say that
nothing has changed unless both texts are indexed. -/
structure Faithful (r : Request) (config : Config) (oldPath newPath : Path) (before after : Text)
    (outcome : Outcome) : Prop where
  warns_or_lists : outcome.status = 1 ∧ outcome.output = notIndexed r oldPath.text ∨
    outcome.status = 0 ∧ ∃ first second,
      config.Successive oldPath.text oldPath.language before after first second ∧
      outcome.output = changeLines r config oldPath newPath second
        (History.eventsFrom 0 oldPath.text 2 (first.changesTo second))
  unchanged : outcome.status = 0 → outcome.output = unchangedLines r oldPath newPath →
    config.Indexes oldPath.language before ∧ config.Indexes oldPath.language after

/-- **Changes are left out exactly if one of the two texts is indexed and the other one is not.**
Then the program says that nothing has changed.  If neither is indexed it warns, and if both are it
lists the changes. -/
theorem run_faithful_iff {r : Request} {old new : String} {before after : Text} {config : Config}
    (h : Compares r old new before after) (hload : r.settings.load = .ok config) :
    ((∃ outcome, run r = .ok outcome) ↔ Starts r config) ∧
      ∀ outcome, run r = .ok outcome →
        (Faithful r config (Path.ofString old) (Path.ofString new) before after outcome ↔
          (config.Indexes (Path.ofString old).language before ↔
            config.Indexes (Path.ofString old).language after)) ∧
        (outcome.status = 1 ↔ ¬ config.Indexes (Path.ofString old).language before ∧
          ¬ config.Indexes (Path.ofString old).language after) ∧
        (¬ (config.Indexes (Path.ofString old).language before ↔
            config.Indexes (Path.ofString old).language after) →
          outcome.status = 0 ∧
            outcome.output = unchangedLines r (Path.ofString old) (Path.ofString new)) := by
  refine ⟨exists_run_iff h hload, fun outcome hrun => ⟨?_, ?_, unchanged_of_run h hload hrun⟩⟩
  · constructor
    · intro hfaithful
      refine Classical.byContradiction fun hone => hone ?_
      obtain ⟨hstatus, houtput⟩ := unchanged_of_run h hload hrun hone
      obtain ⟨hbefore, hafter⟩ := hfaithful.unchanged hstatus houtput
      exact iff_of_true hbefore hafter
    · intro heither
      obtain ⟨shown, changes, hcomparison, htold⟩ := told_of_run h hload hrun
      cases hcomparison with
      | neither =>
        obtain ⟨hstatus, houtput⟩ := Prod.mk.inj htold
        refine ⟨Or.inl ⟨hstatus.symm, houtput.symm⟩, fun hzero => ?_⟩
        exact absurd (hstatus.trans hzero) (by decide)
      | one hone => exact absurd heither hone
      | @both first second hbefore hafter hsuccessive =>
        obtain ⟨hstatus, houtput⟩ := Prod.mk.inj htold
        exact ⟨Or.inr ⟨hstatus.symm, first, second, hsuccessive, houtput.symm⟩,
          fun _ _ => ⟨hbefore, hafter⟩⟩
  · obtain ⟨shown, changes, hcomparison, htold⟩ := told_of_run h hload hrun
    rw [← show _ = outcome.status from congrArg Prod.fst htold]
    cases hcomparison with
    | neither hbefore hafter => exact iff_of_true rfl ⟨hbefore, hafter⟩
    | one hone =>
      exact iff_of_false (by simp [told]) fun hnone => hone (iff_of_false hnone.1 hnone.2)
    | both hbefore => exact iff_of_false (by simp [told]) fun hnone => hnone.1 hbefore

/-- A text of 15 characters. -/
def shorter : Text := "function a() \x7b\x7d".toList

/-- A text of 31 characters, with one function more. -/
def longer : Text := "function a() \x7b\x7d\nfunction b() \x7b\x7d".toList

/-- The two texts are compared, and the environment sets a limit to their lengths. -/
def growing (limit : String) : Request where
  arguments := ["diff", "old.ts", "new.ts"]
  read? path :=
    if path = ⟨"", ["old.ts"]⟩ then some shorter
    else if path = ⟨"", ["new.ts"]⟩ then some longer
    else none
  settings := ⟨none, none, none, ⟨[("LIVECODE_MAX_DOCUMENT_CHARS", limit)]⟩⟩
  width := 80

theorem compares_growing (limit : String) :
    Compares (growing limit) "old.ts" "new.ts" shorter longer := by
  have hold : Path.ofString "old.ts" = ⟨"", ["old.ts"]⟩ := by decide +kernel
  have hnew : Path.ofString "new.ts" = ⟨"", ["new.ts"]⟩ := by decide +kernel
  have hclean : ∀ name ∈ ["old.ts", "new.ts"],
      (Path.mk "" [name]).text.toList.contains '\x00' = false := by decide +kernel
  refine ⟨⟨["old.ts", "new.ts"], rfl, by decide +kernel⟩, ?_, ?_, ?_⟩
  · show ["diff", "old.ts", "new.ts"].any isHelpFlag = false
    decide +kernel
  · rw [hold, fileText, hclean "old.ts" (by simp)]
    rfl
  · rw [hnew, fileText, hclean "new.ts" (by simp)]
    rfl

/-- The settings with a limit to the lengths of texts. -/
def limited (limit : Int) : Config := { Config.default with maxDocumentChars := limit }

/-- With room for both texts, the function that is new in the second one is listed. -/
theorem addition_listed :
    ∃ outcome, run (growing "40") = .ok outcome ∧ outcome.status = 0 ∧
      Faithful (growing "40") (limited 40) (Path.ofString "old.ts") (Path.ofString "new.ts") shorter
        longer outcome := by
  have hload : (growing "40").settings.load = .ok (limited 40) :=
    SettingSources.eq_ok_of_toOption (by decide +kernel)
  have hindexes : ∀ t ∈ [shorter, longer],
      (limited 40).Indexes (Path.ofString "old.ts").language t := by
    unfold Config.Indexes
    decide +kernel
  have hrun : (run (growing "40")).toOption.map Outcome.status = some 0 := by decide +kernel
  obtain ⟨outcome, hoption, hstatus⟩ := Option.map_eq_some_iff.mp hrun
  have houtcome := SettingSources.eq_ok_of_toOption hoption
  have hfaithful := ((run_faithful_iff (compares_growing "40") hload).2 outcome houtcome).1
  exact ⟨outcome, houtcome, hstatus, hfaithful.mpr (iff_of_true (hindexes shorter (by simp))
    (hindexes longer (by simp)))⟩

/-- With room for the first text only, the program says that nothing has changed. -/
theorem addition_left_out :
    (growing "20").settings.load = .ok (limited 20) ∧
      ∃ outcome, run (growing "20") = .ok outcome ∧ outcome.status = 0 ∧
        outcome.output = unchangedLines (growing "20") (Path.ofString "old.ts")
          (Path.ofString "new.ts") ∧
        ¬ Faithful (growing "20") (limited 20) (Path.ofString "old.ts") (Path.ofString "new.ts")
          shorter longer outcome := by
  have hload : (growing "20").settings.load = .ok (limited 20) :=
    SettingSources.eq_ok_of_toOption (by decide +kernel)
  have hshorter : (limited 20).Indexes (Path.ofString "old.ts").language shorter := by
    unfold Config.Indexes
    decide +kernel
  have hlonger : ¬ (limited 20).Indexes (Path.ofString "old.ts").language longer := by
    unfold Config.Indexes
    decide +kernel
  have hrun : (run (growing "20")).toOption.isSome = true := by decide +kernel
  obtain ⟨outcome, hoption⟩ := Option.isSome_iff_exists.mp hrun
  have houtcome := SettingSources.eq_ok_of_toOption hoption
  obtain ⟨hstatus, houtput⟩ := unchanged_of_run (compares_growing "20") hload houtcome
    fun heither => hlonger (heither.mp hshorter)
  exact ⟨hload, outcome, houtcome, hstatus, houtput,
    fun hfaithful => hlonger (hfaithful.unchanged hstatus houtput).2⟩

end Command

end SymbolAtlas
