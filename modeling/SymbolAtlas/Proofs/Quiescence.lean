import SymbolAtlas.Proofs.Fresh
import SymbolAtlas.Proofs.Snapshot

/-!
# Files at rest

A file is at rest while no pass over it is waiting.  Then everything derived from its document is
up to date (`Session.Fresh.upToDate`): snapshot, edges and baseline tell of the document's present
version, or there is nothing to tell and the index has forgotten the file.

At any moment of a run without faults a snapshot is at most behind its document, never different
at the same version, and graph and history have followed it (`FileState.Following`).  Between two
operations a document that is not told of truly has a pass waiting (`FileState.Settled`).  A pass
that is made settles the file, whatever it was asked for (`Following.pass`, `Following.passNow`),
and every operation that changes the document asks for one.
-/

namespace SymbolAtlas
namespace FileState

variable {x : FileState}

/-- What holds of a file at any moment, as long as nothing is made to fail. -/
structure Following (x : FileState) : Prop where
  faultless : x.fault = none
  roomy : x.Roomy
  behind : ∀ c d, x.snapshot = some c → x.document = some d →
    c.version ≤ d.version ∧ (c.version = d.version → c.Reflects d)
  language : ∀ c, x.snapshot = some c → x.config.isSupported c.language = true
  followed : ∀ c, x.snapshot = some c → x.edges = some c.callEdges ∧ x.baseline = some c
  untracked : x.tracked = false → x.snapshot = none
  closed : x.document = none → x.tracked = false

/-- What holds of a file between two operations. -/
structure Settled (x : FileState) : Prop extends Following x where
  observed : ∀ d, x.supported = some d → x.tracked = true
  current : x.due = none → ∀ d, x.supported = some d → d.length ≤ x.config.maxDocumentChars →
    ∃ c, x.snapshot = some c ∧ c.version = d.version
  dropped : x.due = none → x.supported = none → x.tracked = false

/-- The index has forgotten the file. -/
theorem Following.forgotten (h : x.Following) (ht : x.tracked = false) (hs : x.supported = none) :
    x.Settled :=
  { h with
    observed := fun d hd => by simp [hs] at hd
    current := fun _ d hd => by simp [hs] at hd
    dropped := fun _ _ => ht }

theorem Following.forget (h : x.Following) (hs : x.supported = none) : x.forget.Settled :=
  Following.forgotten
    { faultless := h.faultless
      roomy := ⟨h.roomy.config, fun l hl => by simp [FileState.forget] at hl⟩
      behind := fun c d hc => by simp [FileState.forget] at hc
      language := fun c hc => by simp [FileState.forget] at hc
      followed := fun c hc => by simp [FileState.forget] at hc
      untracked := fun _ => rfl
      closed := fun _ => rfl } rfl hs

/-- A new snapshot tells of the document it was made of, and graph and history follow it. -/
theorem Following.installed (h : x.Following) {d : Document} {ids : List String} {l : Lineage}
    (ht : x.tracked = true) (hd : x.supported = some d) (ha : x.assign d = (.ok ids, l)) :
    (x.installed (.ofOutline d (Outline.ofText d.content) ids) l).Settled := by
  obtain ⟨hcap, hassigned⟩ := h.roomy.assigned ha
  have hfault : x.fault = none := h.faultless
  have hdoc : x.document = some d := document_of_supported hd
  refine ⟨⟨hfault, ⟨h.roomy.config, ?_⟩, ?_, ?_, ?_, ?_, ?_⟩, fun _ _ => ht, ?_, ?_⟩
  · intro l'' hl
    rw [← Option.some.inj hl, hcap]
    rfl
  · intro c d' hc hd'
    obtain rfl := Option.some.inj hc
    obtain rfl := Option.some.inj (hdoc.symm.trans hd')
    exact ⟨Int.le_refl _, fun _ => Snapshot.reflects_ofOutline d hassigned.length⟩
  · intro c hc
    obtain rfl := Option.some.inj hc
    exact (Option.filter_eq_some_iff.mp hd).2
  · intro c hc
    obtain rfl := Option.some.inj hc
    simp [FileState.installed, hfault]
  · exact fun hf => absurd (ht.symm.trans hf) (by decide)
  · exact fun hn => absurd (hdoc.symm.trans hn) (by simp)
  · intro _ d' hd' _
    obtain rfl := Option.some.inj (hd.symm.trans hd')
    exact ⟨_, rfl, rfl⟩
  · exact fun _ hn => absurd (hd.symm.trans hn) (by simp)

/-- **A pass settles a file**, if an open document in a supported language is tracked. -/
theorem Following.pass (h : x.Following)
    (hobserved : ∀ d, x.supported = some d → x.tracked = true) : x.pass.Settled := by
  have hpasses := x.passes_pass
  generalize x.pass = y at hpasses
  cases hpasses with
  | untracked hd ht => exact h.forgotten ht hd
  | dropped hd ht => exact h.forget hd
  | tooLong hd hlong =>
    refine { h with observed := hobserved, current := fun _ d' hd' hshort => ?_, dropped := ?_ }
    · obtain rfl := Option.some.inj (hd.symm.trans hd')
      omega
    · exact fun _ hn => absurd (hd.symm.trans hn) (by simp)
  | stale hd hc hold =>
    have := (h.behind _ _ hc (document_of_supported hd)).1
    omega
  | failed hd hf => exact absurd (h.faultless.symm.trans hf) (by simp)
  | stranded hd ha => exact (h.roomy.not_stranded ha).elim
  | installed hd _ _ _ ha => exact h.installed (hobserved _ hd) hd ha

theorem Following.setDue (h : x.Following) (due : Option Int) : { x with due := due }.Following :=
  ⟨h.faultless, ⟨h.roomy.config, h.roomy.lineage⟩, h.behind, h.language, h.followed,
    h.untracked, h.closed⟩

/-- So does a scheduled pass: it is left out only if the snapshot is up to date. -/
theorem Following.passNow (h : x.Following)
    (hobserved : ∀ d, x.supported = some d → x.tracked = true) : x.passNow.Settled := by
  have hdue := h.setDue none
  rcases scheduledPass_cases { x with due := none } with ⟨heq, d, c, hd, hc, hv⟩ | heq
  · rw [FileState.passNow, heq]
    have hreflects := (h.behind c d hc hd).2 hv.symm
    have hsupported : x.supported = some d :=
      Option.filter_eq_some_iff.mpr ⟨hd, hreflects.language ▸ h.language c hc⟩
    refine { hdue with observed := hobserved, current := fun _ d' hd' _ => ?_, dropped := ?_ }
    · obtain rfl := Option.some.inj (hsupported.symm.trans hd')
      exact ⟨c, hc, hv.symm⟩
    · exact fun _ hn => absurd (hsupported.symm.trans hn) (by simp)
  · rw [FileState.passNow, heq]
    exact hdue.pass hobserved

/-! ### Operations -/

/-- Where a pass is scheduled the file is settled: the pass is waiting, or it has been made. -/
theorem Following.schedule (h : x.Following)
    (hobserved : ∀ d, x.supported = some d → x.tracked = true) (now : Int) :
    (x.schedule now).Settled := by
  unfold FileState.schedule
  split_ifs
  · exact { h.setDue _ with
      observed := hobserved
      current := fun hdue => by simp at hdue
      dropped := fun hdue => by simp at hdue }
  · exact h.passNow hobserved

/-- The indexer looks at a file. -/
theorem Following.observe (h : x.Following) (now : Int)
    (hdropped : x.supported = none → x.Settled) : (x.observe now).Settled := by
  unfold FileState.observe
  cases hd : x.supported with
  | none => exact hdropped hd
  | some d =>
    refine Following.schedule (x := { x with tracked := true })
      ⟨h.faultless, ⟨h.roomy.config, h.roomy.lineage⟩, h.behind, h.language, h.followed,
        fun hf => absurd hf (by simp), fun hn => ?_⟩ (fun _ _ => rfl) now
    exact absurd ((document_of_supported hd).symm.trans hn) (by simp)

theorem settled_unread {config : Config} (hcap : 0 ≤ config.maxRetiredIds) (clocked : Bool)
    (document : Option Document) : ((unread config clocked document).observe 0).Settled := by
  have hfollowing : (unread config clocked document).Following :=
    { faultless := rfl
      roomy := ⟨hcap, fun l hl => by simp [unread] at hl⟩
      behind := fun c d hc => by simp [unread] at hc
      language := fun c hc => by simp [unread] at hc
      followed := fun c hc => by simp [unread] at hc
      untracked := fun _ => rfl
      closed := fun _ => rfl }
  exact hfollowing.observe 0 (hfollowing.forgotten rfl)

/-- A document that is followed by another version leaves its snapshot behind. -/
theorem Settled.revise (h : x.Settled) {next : Document → Document}
    (hnext : ∀ d, (next d).version = d.version + 1) (f : String) (now : Int) :
    (x.revise f now next).Settled := by
  unfold FileState.revise
  cases hd : x.document with
  | none => exact h
  | some d =>
    have hfollowing : { x with document := some (next d) }.Following := by
      refine ⟨h.faultless, ⟨h.roomy.config, h.roomy.lineage⟩, fun c d' hc hd' => ?_, h.language,
        h.followed, h.untracked, fun hn => by simp at hn⟩
      obtain rfl := Option.some.inj hd'
      have hbehind := (h.behind c d hc hd).1
      have hversion := hnext d
      exact ⟨by omega, fun hv => by omega⟩
    simp only [receive, if_pos]
    split_ifs with ht
    · exact hfollowing.schedule (fun _ _ => ht) now
    · exact hfollowing.observe now (hfollowing.forgotten (by simpa using ht))

theorem Settled.openDocument (h : x.Settled) (f : String) (now : Int) (content : Text)
    (language : String) (version : Int) :
    (x.openDocument f now content language version).Settled := by
  unfold FileState.openDocument
  cases hd : x.document with
  | none =>
    have ht := h.closed hd
    have hnone := h.untracked ht
    have hfollowing : { x with document := some ⟨f, content, language, version⟩ }.Following :=
      ⟨h.faultless, ⟨h.roomy.config, h.roomy.lineage⟩, fun c d hc => by simp [hnone] at hc,
        h.language, h.followed, h.untracked, fun hn => by simp at hn⟩
    simp only [receive, if_pos]
    exact hfollowing.observe now (hfollowing.forgotten ht)
  | some d => exact h.revise (fun d => rfl) f now

theorem Settled.close (h : x.Settled) (f : String) (now : Int) :
    ({ x with document := none }.receive f now (.documentRemoved f)).Settled := by
  simp only [receive, if_pos]
  exact Following.forgotten
    { faultless := h.faultless
      roomy := ⟨h.roomy.config, fun l hl => by simp [FileState.forget] at hl⟩
      behind := fun c d hc => by simp [FileState.forget] at hc
      language := fun c hc => by simp [FileState.forget] at hc
      followed := fun c hc => by simp [FileState.forget] at hc
      untracked := fun _ => rfl
      closed := fun _ => rfl } rfl rfl

theorem Settled.flush (h : x.Settled) : x.flush.Settled := by
  unfold FileState.flush
  split_ifs
  · exact h.toFollowing.passNow h.observed
  · exact h

/-- **Every ordinary operation keeps files settled.** -/
theorem Settled.step (h : x.Settled) (f : String) (now : Int) {op : Session.Op}
    (hop : op.ordinary = true) : (x.step f now op).Settled := by
  unfold FileState.step
  cases op with
  | openDocument g content language version =>
    dsimp only
    split_ifs
    · exact h.openDocument f now content language version
    · exact h
  | update g content =>
    dsimp only
    split_ifs
    · exact h.revise (fun d => rfl) f now
    · exact h
  | edit g first last text =>
    dsimp only
    split_ifs
    · exact h.revise (fun d => rfl) f now
    · exact h
  | close g =>
    dsimp only
    split_ifs
    · exact h.close f now
    · exact h
  | advance ms =>
    dsimp only [passUntil]
    split_ifs
    · exact h.toFollowing.passNow h.observed
    · exact h
  | flush => exact h.flush
  | flushFile g =>
    dsimp only
    split_ifs
    · exact h.flush
    · exact h
  | start => exact h.toFollowing.observe now fun _ => h
  | recompute g =>
    dsimp only
    split_ifs
    · exact (h.toFollowing.setDue none).pass h.observed
    · exact h
  | plant d | uproot g | publish n | setFault fault | dispose part => cases hop

end FileState

/-! ### Sessions -/

namespace Session

/-- What a session says about a file at rest: all that it has derived from the document tells of
the document's present version, or the index has forgotten the file. -/
structure UpToDate (s : Session) (f : String) : Prop where
  indexed : ∀ d, s.buffer.get? f = some d → s.config.isSupported d.language = true →
    d.length ≤ s.config.maxDocumentChars → ∃ snapshot, s.snapshot? f = some snapshot ∧
      snapshot.Reflects d ∧ s.graph.edgesOf f = snapshot.callEdges ∧
      (s.history.ofFile f).baseline = some snapshot
  forgotten : (∀ d, s.buffer.get? f = some d → s.config.isSupported d.language = false) →
    s.snapshot? f = none ∧ f ∉ s.index.tracked

/-- A settled file that does not wait is up to date. -/
theorem upToDate_of_settled {s : Session} {f : String} (h : (s.file f).Settled)
    (hf : s.timers.isPending f = false) : s.UpToDate f := by
  have hdue : (s.file f).due = none := by
    rw [Timers.isPending_eq] at hf
    exact Option.not_isSome_iff_eq_none.mp (Bool.eq_false_iff.mp hf)
  constructor
  · intro d hd hlanguage hlength
    obtain ⟨c, hc, hv⟩ := h.current hdue d (Option.filter_eq_some_iff.mpr ⟨hd, hlanguage⟩) hlength
    obtain ⟨hedges, hbaseline⟩ := h.followed c hc
    refine ⟨c, hc, (h.behind c d hc hd).2 hv, ?_, hbaseline⟩
    rw [CallGraph.edgesOf, show s.graph.files.get? f = _ from hedges, Option.getD_some]
  · intro hnone
    have hsupported : (s.file f).supported = none := by
      refine Option.eq_none_iff_forall_ne_some.mpr fun d hd => ?_
      obtain ⟨hdoc, hlanguage⟩ := Option.filter_eq_some_iff.mp hd
      exact absurd ((hnone d hdoc).symm.trans hlanguage) (by simp)
    have htracked := h.dropped hdue hsupported
    exact ⟨h.untracked htracked, of_decide_eq_false htracked⟩

/-- **Files at rest are up to date**, after any ordinary operations on any files, whatever documents
were open from the beginning. -/
theorem Fresh.upToDate {config : Config} (hcap : 0 ≤ config.maxRetiredIds) {s : Session}
    (hs : Fresh config s) {ops : List Op} (hops : ∀ op ∈ ops, op.ordinary = true) (f : String)
    (hf : (s.run ops).timers.isPending f = false) : (s.run ops).UpToDate f := by
  obtain ⟨clocked, document, hfile⟩ := hs.file f
  refine upToDate_of_settled ?_ hf
  refine file_run (fun op hop => Op.disposes_of_regular (Op.regular_of_ordinary hop))
    (fun x now op hop hx => hx.step f now hop) hs.regular ?_ hops
  rw [hfile]
  exact FileState.settled_unread hcap clocked document

/-- A session with a clock and a document open from the beginning, after an update and the wait. -/
def afterWait : Session :=
  (new .default true (.holding [⟨"a.ts", "function f() {}".toList, "typescript", 1⟩])).run
    [.update "a.ts" "function g() { g(); }".toList, .advance 250]

/-- The update is waited for no more, and all is told of the second version. -/
theorem afterWait_upToDate :
    afterWait.timers.isPending "a.ts" = false ∧
      (afterWait.snapshot? "a.ts").map Snapshot.version = some 2 ∧ afterWait.UpToDate "a.ts" := by
  have hpending : afterWait.timers.isPending "a.ts" = false := by decide +kernel
  refine ⟨hpending, by decide +kernel, ?_⟩
  exact Fresh.upToDate (by decide) (.new true _) (by decide) "a.ts" hpending

end Session
end SymbolAtlas
