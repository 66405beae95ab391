import SymbolAtlas.Proofs.Interference
import SymbolAtlas.Proofs.Quiescence
import SymbolAtlas.Proofs.Revision
import SymbolAtlas.Proofs.Versions

/-!
# One update for a burst of edits

With a clock every edit of a file puts the pass over it off, so edits that follow each other soon
enough make one pass together.  `Session.Burst` says what may be done meanwhile, to this file and to
any others.  Until the clock reaches the end of the wait the snapshot of the file is what it was
before the first edit, so nobody is told of one; then the pass is made at the very moment at which
it is due, and finds the document as the last edit left it (`Session.Burst.toldOnce`).

Two things a session can be asked for besides change this: the indexer begins to wait anew when it
is started again, and once it is disposed of there are no passes (`Session.untold`).
-/

namespace SymbolAtlas

namespace Session

/-- Whether an operation gives the open file `f` its next version, in a language that is
supported. -/
def Op.edits (config : Config) (f : String) : Op → Bool
  | .openDocument g _ language _ => g = f && config.isSupported language
  | .update g _ | .edit g _ _ _ => g = f
  | _ => false

/-- Whether a pass that the file `f` is waiting for is made at once. -/
def Op.flushes (f : String) : Op → Bool
  | .flush => true
  | .flushFile g => g = f
  | _ => false

/-- How far a burst has got: there has been no edit yet, or the last one so far left the document
`d`, and the pass is waited for since some moment. -/
inductive Stage where
  | calm
  | waiting (since : Int) (d : Document)

/-- A burst of edits of the file `f`, from some stage on.  In the end the document is `d` and the
clock moves on for as long as a pass has to be waited for since the moment `since`.  That is the
moment of the last edit, or the one at which the indexer was started after it. -/
inductive Burst (f : String) : Stage → Session → List Op → Int → Document → Prop
  | calm {s : Session} {op : Op} {ops : List Op} {since : Int} {d : Document}
      (hspares : op.spares f = true) (hfree : op.forces f = false)
      (rest : Burst f .calm (s.step op).1 ops since d) : Burst f .calm s (op :: ops) since d
  | edit {stage : Stage} {s : Session} {op : Op} {ops : List Op} {t since : Int}
      {d d' : Document} (hop : op.edits s.config f = true) (hnow : s.timers.now = t)
      (hd : (s.step op).1.buffer.get? f = some d')
      (rest : Burst f (.waiting t d') (s.step op).1 ops since d) :
      Burst f stage s (op :: ops) since d
  | restart {s : Session} {ops : List Op} {t t' since : Int} {d d' : Document}
      (hnow : s.timers.now = t) (rest : Burst f (.waiting t d') (s.step .start).1 ops since d) :
      Burst f (.waiting t' d') s (.start :: ops) since d
  | meanwhile {s : Session} {op : Op} {ops : List Op} {t since : Int} {d d' : Document}
      (hspares : op.spares f = true) (hfree : op.forces f = false) (hflush : op.flushes f = false)
      (hstart : op ≠ .start)
      (hsoon : ∀ ms, op = .advance ms → s.timers.now + ms < t + s.config.delay)
      (rest : Burst f (.waiting t d') (s.step op).1 ops since d) :
      Burst f (.waiting t d') s (op :: ops) since d
  | due {s : Session} {ms since : Int} {d : Document}
      (hdue : since + s.config.delay ≤ s.timers.now + ms) :
      Burst f (.waiting since d) s [.advance ms] since d

end Session

/-! ### One file -/

namespace FileState

variable {d : Document} {since : Int}

/-- A document is open that can be indexed, and a scheduled pass would find nothing to do. -/
structure Calm (x : FileState) : Prop where
  supported : ∃ d, x.supported = some d
  current : ∀ d, x.supported = some d → d.length ≤ x.config.maxDocumentChars →
    ∃ c, x.snapshot = some c ∧ c.version = d.version

/-- The document is `d`, the snapshot is of an earlier version, and a pass is waited for. -/
structure Waiting (since : Int) (d : Document) (x : FileState) : Prop where
  supported : x.supported = some d
  behind : ∀ c, x.snapshot = some c → c.version < d.version
  due : x.due = some (since + x.config.delay)

/-- What holds of a file at some stage of a burst. -/
def AtStage (x : FileState) : Session.Stage → Prop
  | .calm => x.Calm
  | .waiting since d => x.Waiting since d

variable {x : FileState} {f : String} {op : Session.Op}

theorem AtStage.supported {stage : Session.Stage} (h : x.AtStage stage) :
    ∃ d, x.supported = some d := by
  cases stage with
  | calm => exact Calm.supported h
  | waiting since d => exact ⟨d, Waiting.supported h⟩

/-- A pass changes neither the document nor the settings. -/
theorem passNow_document_config (x : FileState) :
    x.passNow.document = x.document ∧ x.passNow.config = x.config := by
  rcases scheduledPass_cases { x with due := none } with ⟨heq, -⟩ | heq
  · rw [passNow, heq]
    exact ⟨rfl, rfl⟩
  · rw [passNow, heq]
    have hpasses := passes_pass { x with due := none }
    generalize FileState.pass { x with due := none } = y at hpasses
    cases hpasses <;> exact ⟨rfl, rfl⟩

theorem observe_of_clocked (hclocked : x.clocked = true) (hd : x.supported = some d) (now : Int) :
    x.observe now = { x with tracked := true, due := some (now + x.config.delay) } := by
  simp [observe, hd, schedule, hclocked]

/-- A scheduled pass that finds nothing to do. -/
theorem Calm.passNow (h : x.Calm) : x.passNow = { x with due := none } := by
  obtain ⟨d, hd⟩ := h.supported
  have hdoc := document_of_supported hd
  by_cases hlength : d.length ≤ x.config.maxDocumentChars
  · obtain ⟨c, hc, hv⟩ := h.current d hd hlength
    simp [FileState.passNow, scheduledPass, hdoc, hc, hv]
  · have hpass : { x with due := none }.pass = { x with due := none } := by
      have hsupported : { x with due := none }.supported = some d := hd
      rw [FileState.pass, hsupported]
      exact if_pos (Int.not_le.mp hlength)
    rcases scheduledPass_cases { x with due := none } with ⟨heq, -⟩ | heq
    · exact heq
    · exact heq.trans hpass

/-- What becomes of a file by an operation that leaves its document alone and forces no pass:
nothing happens, or the pass that is waited for is made, or the indexer is started. -/
inductive Spared (f : String) (now : Int) (op : Session.Op) (x : FileState) : FileState → Prop
  | idle : Spared f now op x x
  | passed {due : Int} (hdue : x.due = some due)
      (hop : op.flushes f = true ∨ ∃ ms, op = .advance ms ∧ due ≤ now + ms) :
      Spared f now op x x.passNow
  | observed (hop : op = .start) : Spared f now op x (x.observe now)

theorem spared_step (hspares : op.spares f = true) (hfree : op.forces f = false) (now : Int) :
    Spared f now op x (x.step f now op) := by
  have hflush : op.flushes f = true → Spared f now op x x.flush := by
    intro hop
    unfold FileState.flush
    cases hdue : x.due with
    | none => exact .idle
    | some due => exact .passed hdue (.inl hop)
  unfold FileState.step
  cases op with
  | openDocument g content language version | update g content | edit g first last text =>
    have hne : g ≠ f := by simpa [Session.Op.spares] using hspares
    dsimp only
    rw [if_neg hne]
    exact .idle
  | close g =>
    have hne : g ≠ f := by simpa [Session.Op.spares] using hspares
    simp only [hne, decide_false, Bool.false_and, Bool.false_eq_true, if_false]
    exact .idle
  | advance ms =>
    dsimp only [FileState.passUntil]
    split_ifs with hdue
    · obtain ⟨due, hdue, hle⟩ := (Option.any_eq_true _ _).mp hdue
      exact .passed hdue (.inr ⟨ms, rfl, of_decide_eq_true hle⟩)
    · exact .idle
  | flush => exact hflush rfl
  | flushFile g =>
    dsimp only
    split_ifs with hg
    · exact hflush (decide_eq_true hg)
    · exact .idle
  | start => exact .observed rfl
  | recompute g =>
    dsimp only
    rw [if_neg (of_decide_eq_false hfree)]
    exact .idle
  | plant d | uproot g | publish n | setFault fault | dispose part => cases hspares

/-- Before the first edit nothing happens to the file but that it may be waited for. -/
theorem Calm.step (h : x.Calm) (hclocked : x.clocked = true) (hspares : op.spares f = true)
    (hfree : op.forces f = false) (now : Int) :
    (x.step f now op).Calm ∧ (x.step f now op).snapshot = x.snapshot := by
  have hspared := spared_step (x := x) hspares hfree now
  generalize x.step f now op = y at hspared
  cases hspared with
  | idle => exact ⟨h, rfl⟩
  | passed =>
    rw [h.passNow]
    exact ⟨⟨h.supported, h.current⟩, rfl⟩
  | observed =>
    obtain ⟨d, hd⟩ := h.supported
    rw [observe_of_clocked hclocked hd]
    exact ⟨⟨h.supported, h.current⟩, rfl⟩

theorem step_of_edits {d₀ : Document} (hd₀ : x.supported = some d₀)
    (hop : op.edits x.config f = true) (now : Int) :
    ∃ next : Document → Document, x.step f now op = x.revise f now next ∧
      (next d₀).version = d₀.version + 1 ∧ x.config.isSupported (next d₀).language = true := by
  obtain ⟨hopen, hlanguage⟩ := Option.filter_eq_some_iff.mp hd₀
  cases op with
  | openDocument g content language version =>
    obtain ⟨hg, hsupported⟩ := Bool.and_eq_true_iff.mp hop
    refine ⟨reopened content language, ?_, rfl, hsupported⟩
    simp [FileState.step, of_decide_eq_true hg, FileState.openDocument, hopen]
  | update g content =>
    exact ⟨updated content, if_pos (of_decide_eq_true hop), rfl, hlanguage⟩
  | edit g first last text =>
    exact ⟨edited first last text, if_pos (of_decide_eq_true hop), rfl, hlanguage⟩
  | close | plant | uproot | publish | advance | flush | flushFile | start | recompute | setFault
  | dispose => cases hop

/-- An edit leaves the snapshot behind and begins to wait. -/
theorem AtStage.edit {stage : Session.Stage} (h : x.AtStage stage) (hclocked : x.clocked = true)
    (hx : x.Settled) (hop : op.edits x.config f = true) {now : Int}
    (hd : (x.step f now op).document = some d) :
    (x.step f now op).Waiting now d ∧ (x.step f now op).snapshot = x.snapshot := by
  obtain ⟨d₀, hd₀⟩ := h.supported
  have hopen := document_of_supported hd₀
  obtain ⟨next, hstep, hversion, hlanguage⟩ := step_of_edits hd₀ hop now
  have hrevise : x.revise f now next =
      { x with document := some (next d₀), due := some (now + x.config.delay) } := by
    simp [FileState.revise, hopen, FileState.receive, hx.observed d₀ hd₀, FileState.schedule,
      hclocked]
  rw [hstep, hrevise] at hd ⊢
  obtain rfl := Option.some.inj hd
  refine ⟨⟨Option.filter_eq_some_iff.mpr ⟨rfl, hlanguage⟩, fun c hc => ?_, rfl⟩, rfl⟩
  have hbehind := (hx.behind c d₀ hc hopen).1
  omega

/-- The indexer is started again and begins to wait anew. -/
theorem Waiting.observe (h : x.Waiting since d) (hclocked : x.clocked = true) (now : Int) :
    (x.observe now).Waiting now d ∧ (x.observe now).snapshot = x.snapshot := by
  rw [observe_of_clocked hclocked h.supported]
  exact ⟨⟨h.supported, h.behind, rfl⟩, rfl⟩

/-- Nothing else happens to the file before the pass is due. -/
theorem Waiting.step_eq (h : x.Waiting since d) (hspares : op.spares f = true)
    (hfree : op.forces f = false) (hflush : op.flushes f = false) (hstart : op ≠ .start)
    {now : Int} (hsoon : ∀ ms, op = .advance ms → now + ms < since + x.config.delay) :
    x.step f now op = x := by
  have hspared := spared_step (x := x) hspares hfree now
  generalize x.step f now op = y at hspared
  cases hspared with
  | idle => rfl
  | passed hdue hop =>
    obtain rfl := Option.some.inj (h.due.symm.trans hdue)
    rcases hop with hop | ⟨ms, rfl, hle⟩
    · exact absurd (hflush.symm.trans hop) (by decide)
    · exact absurd hle (Int.not_le.mpr (hsoon ms rfl))
  | observed hop => exact absurd hop hstart

/-- When the pass is due it makes a snapshot of the document. -/
theorem Waiting.pass (h : x.Waiting since d) (hx : x.Settled)
    (hlength : d.length ≤ x.config.maxDocumentChars) {target : Int}
    (hdue : since + x.config.delay ≤ target) :
    (x.passUntil target).document = some d ∧
      ∃ c, (x.passUntil target).snapshot = some c ∧ c.version = d.version := by
  have hpass : x.passUntil target = x.passNow := by
    rw [FileState.passUntil, h.due, Option.any_some, if_pos (decide_eq_true hdue)]
  obtain ⟨hopen, hlanguage⟩ := Option.filter_eq_some_iff.mp h.supported
  obtain ⟨hdoc, hconfig⟩ := x.passNow_document_config
  rw [hopen] at hdoc
  have hsettled := hx.toFollowing.passNow hx.observed
  rw [hpass]
  refine ⟨hdoc, hsettled.current x.due_passNow d ?_ ?_⟩
  · exact Option.filter_eq_some_iff.mpr ⟨hdoc, hconfig ▸ hlanguage⟩
  · exact hconfig ▸ hlength

end FileState

/-! ### The moment of a pass -/

namespace Session

variable {s : Session} {f : String} {who : Subscriber} {op : Op} {config : Config} {ops : List Op}

/-- The clock stands still while a pass is made. -/
theorem Passes.timers_of_mem {t : Session} {g : String} {forced : Bool} {cs : List Call}
    (h : Passes g forced s cs t) {call : Call} (hcall : call ∈ cs) :
    call.session.timers = s.timers := by
  cases h with
  | idle | dropped | stranded => cases hcall
  | installed => exact ((aside_announceSnapshot _ _).calls call hcall).1.timers

/-- **While the clock moves on, a new snapshot is told of at the moment at which the pass over the
file is due**, whatever passes over other files are made before and after. -/
theorem due?_of_news (hs : s.Tidy) (hregular : s.Regular) (target : Int) (fuel : Nat)
    {call : Call} (hcall : call ∈ newsOf f who (passUntilCalls target fuel s)) :
    s.timers.due? f = some call.session.timers.now := by
  induction fuel generalizing s with
  | zero => cases hcall
  | succ fuel ih =>
    unfold passUntilCalls at hcall
    cases hnext : s.timers.next? target with
    | none =>
      rw [hnext] at hcall
      cases hcall
    | some timer =>
      have hm := Moves.goOff s timer
      have hpass := passes_scheduledPass { s with timers := s.timers.goOff timer } timer.key
      have htidy : (s.wake timer).Tidy := (hs.moves hm).reaches hpass.unfolds.reaches
      rw [hnext] at hcall
      dsimp only at hcall
      rw [newsOf_append] at hcall
      by_cases hkey : timer.key = f
      · have hwaiting : s.timers.due? f = some timer.due :=
          hkey ▸ Timers.due?_of_mem hs.timers (Timers.mem_of_next? hnext).1
        have hdone : (s.wake timer).timers.due? f = none := by
          rw [due?_wake hregular, if_pos hkey.symm]
        have hsilent := newsOf_of_leavesAlone (leavesAlone_passUntil f target fuel htidy hdone) who
        rw [wake] at hsilent
        rw [hsilent, List.append_nil] at hcall
        rw [hwaiting, hpass.timers_of_mem (List.mem_filter.mp hcall).1]
        rfl
      · have hother := newsOf_of_leavesAlone ((touches_timed hs hm f timer.key).alone hkey) who
        rw [hother, List.nil_append] at hcall
        have hdue : (s.wake timer).timers.due? f = s.timers.due? f := by
          rw [due?_wake hregular, if_neg (Ne.symm hkey)]
        exact hdue ▸ ih htidy (hregular.wake timer) hcall

/-! ### Being told -/

/-- Among some calls there is one that tells `who` of a new snapshot of the file `f`.  It is made at
the moment `time`, when the document `d` is open and the snapshot is one of it. -/
def ToldOnce (f : String) (who : Subscriber) (cs : List Call) (time : Int) (d : Document) : Prop :=
  ∃ call c, newsOf f who cs = [call] ∧ call.session.timers.now = time ∧
    call.session.Indexed f d c ∧ c.Reflects d

section Happens

variable {f : String} {s t : Session} {cs : List Call} {o : Outcome}

/-- Unless a pass is forced, nobody is told of a snapshot that was there before. -/
theorem Happens.silent (h : Happens f false s cs t o) (hlast : t.snapshot? f = s.snapshot? f)
    (who : Subscriber) : newsOf f who cs = [] := by
  cases h with
  | untouched last calls news => exact news who
  | forgotten last before after news => exact news who
  | installed last complete version before after silence news =>
    obtain hnewer | ⟨hforced, -⟩ := version _ (hlast ▸ last.snapshot)
    · exact absurd hnewer (Int.lt_irrefl _)
    · cases hforced

/-- Everybody who cares is told of a snapshot that was not there before. -/
theorem Happens.told {forced : Bool} (h : Happens f forced s cs t o) {c : Snapshot}
    (hlast : t.snapshot? f = some c) (hnew : s.snapshot? f ≠ some c) (hwho : who ∈ s.subscribers)
    (hlistens : who.listensTo .snapshotUpdated = true) :
    ∃ call d, newsOf f who cs = [call] ∧ call.session.Indexed f d c ∧ c.Reflects d ∧
      t.Indexed f d c := by
  cases h with
  | untouched last calls news => exact absurd (last.symm.trans hlast) hnew
  | forgotten last before after news => exact absurd (last.snapshot.symm.trans hlast) (by simp)
  | @installed _ ds _ d c' last complete version before after silence news =>
    obtain rfl : c' = c := Option.some.inj (last.snapshot.symm.trans hlast)
    obtain ⟨call, hcall⟩ := List.length_eq_one_iff.mp (news who hwho hlistens)
    have hmem : call ∈ newsOf f who ds := hcall ▸ List.mem_singleton_self call
    refine ⟨call, d, ?_, after call (List.mem_filter.mp hmem).1, complete, last⟩
    rw [newsOf_append, silence, List.nil_append, hcall]

end Happens

/-! ### Bursts -/

/-- What holds of a session throughout a burst of edits of the file `f`. -/
structure Ready (config : Config) (who : Subscriber) (f : String) (s : Session) : Prop where
  tidy : s.Tidy
  regular : s.Regular
  settled : (s.file f).Settled
  clocked : s.clocked = true
  config : s.config = config
  subscribed : who ∈ s.subscribers

theorem Op.genuine_of_ordinary (h : op.ordinary = true) : op.genuine = true := by
  cases op with
  | publish n | dispose part => cases h
  | _ => rfl

theorem Op.ordinary_of_spares (h : op.spares f = true) : op.ordinary = true := by
  cases op with
  | openDocument | update | edit | close => rfl
  | _ => exact h

theorem Op.ordinary_of_edits (h : op.edits config f = true) :
    op.ordinary = true ∧ op.forces f = false := by
  cases op with
  | openDocument | update | edit => exact ⟨rfl, rfl⟩
  | _ => cases h

section Ready

variable {config : Config} {who : Subscriber} {f : String} {s : Session} {op : Op} {since : Int}
  {d : Document}

theorem Ready.file_step (h : s.Ready config who f) (hop : op.ordinary = true) :
    (s.step op).1.file f = (s.file f).step f s.timers.now op :=
  Session.file_step h.regular (Op.disposes_of_regular (Op.regular_of_ordinary hop)) f

theorem Ready.step (h : s.Ready config who f) (hop : op.ordinary = true) :
    (s.step op).1.Ready config who f := by
  have hkept := Op.disposes_of_regular (Op.regular_of_ordinary hop)
  have hreaches := (follows_step s hkept).reaches
  refine ⟨h.tidy.step op, h.regular.step hkept, ?_, (clocked_of_reaches hreaches).trans h.clocked,
    (config_step s hkept).trans h.config, ?_⟩
  · rw [h.file_step hop]
    exact h.settled.step f s.timers.now hop
  · rw [subscribers_of_reaches hreaches]
    exact h.subscribed

theorem Ready.run (h : s.Ready config who f) (hops : ∀ op ∈ ops, op.ordinary = true) :
    (s.run ops).Ready config who f := by
  induction ops generalizing s with
  | nil => exact h
  | cons op ops ih =>
    rw [List.forall_mem_cons] at hops
    exact ih (h.step hops.1) hops.2

/-- An operation that keeps the snapshot comes before, without a word of it. -/
theorem Ready.before (h : s.Ready config who f) (hop : op.ordinary = true)
    (hfree : op.forces f = false)
    (hsame : ((s.file f).step f s.timers.now op).snapshot = (s.file f).snapshot) {time : Int}
    (hrest : ToldOnce f who ((s.step op).1.callsOf ops) time d) :
    ToldOnce f who (s.callsOf (op :: ops)) time d := by
  obtain ⟨o, ho⟩ := happens_step h.tidy f (Op.genuine_of_ordinary hop)
  rw [hfree] at ho
  have hlast : (s.step op).1.snapshot? f = s.snapshot? f :=
    (congrArg FileState.snapshot (h.file_step hop)).trans hsame
  obtain ⟨call, c, hnews, htold⟩ := hrest
  refine ⟨call, c, ?_, htold⟩
  rw [callsOf, callsOver, newsOf_append, ho.silent hlast who]
  exact hnews

/-- The pass that was waited for is made, and everybody who cares is told. -/
theorem Ready.due (h : s.Ready config who f) (hwaiting : (s.file f).Waiting since d)
    (hlength : d.length ≤ config.maxDocumentChars)
    (hlistens : who.listensTo .snapshotUpdated = true) {ms : Int}
    (hdue : since + s.config.delay ≤ s.timers.now + ms) :
    ToldOnce f who (s.calls (.advance ms)) (since + config.delay) d := by
  have hop : (Op.advance ms).ordinary = true := rfl
  have hfile := h.file_step hop
  have hfits : d.length ≤ s.config.maxDocumentChars := by rwa [h.config]
  obtain ⟨hdoc, c, hc, hv⟩ := hwaiting.pass h.settled hfits hdue
  rw [show (s.file f).passUntil (s.timers.now + ms) = _ from hfile.symm] at hdoc hc
  obtain ⟨o, ho⟩ := happens_step h.tidy f (Op.genuine_of_ordinary hop)
  have hnew : s.snapshot? f ≠ some c := fun hold => by
    have hbehind := hwaiting.behind c hold
    omega
  obtain ⟨call, d', hnews, hindexed, hreflects, hlast⟩ := ho.told hc hnew h.subscribed hlistens
  obtain rfl : d' = d := Option.some.inj (hlast.document.symm.trans hdoc)
  refine ⟨call, c, hnews, ?_, hindexed, hreflects⟩
  have hmoment := due?_of_news h.tidy h.regular (s.timers.now + ms) s.timers.waiting.length
    (hnews ▸ List.mem_singleton_self call)
  rw [← h.config]
  exact Option.some.inj (hmoment.symm.trans hwaiting.due)

end Ready

/-- **A burst of edits is told of once**, when it is over. -/
theorem Burst.toldOnce {stage : Stage} {since : Int} {d : Document}
    (h : Burst f stage s ops since d) (hs : s.Ready config who f)
    (hstage : (s.file f).AtStage stage) (hlength : d.length ≤ config.maxDocumentChars)
    (hlistens : who.listensTo .snapshotUpdated = true) :
    ToldOnce f who (s.callsOf ops) (since + config.delay) d := by
  induction h with
  | @calm s op ops since d hspares hfree rest ih =>
    have hop := Op.ordinary_of_spares hspares
    obtain ⟨hcalm, hsame⟩ := FileState.Calm.step hstage hs.clocked hspares hfree s.timers.now
    rw [← hs.file_step hop] at hcalm
    exact hs.before hop hfree hsame (ih (hs.step hop) hcalm hlength)
  | @edit stage s op ops t since d d' hedits hnow hd rest ih =>
    subst hnow
    obtain ⟨hop, hfree⟩ := Op.ordinary_of_edits hedits
    have hfile := hs.file_step hop
    obtain ⟨hwaiting, hsame⟩ :=
      hstage.edit hs.clocked hs.settled hedits ((congrArg FileState.document hfile).symm.trans hd)
    rw [← hfile] at hwaiting
    exact hs.before hop hfree hsame (ih (hs.step hop) hwaiting hlength)
  | @restart s ops t t' since d d' hnow rest ih =>
    subst hnow
    have hop : Op.start.ordinary = true := rfl
    obtain ⟨hwaiting, hsame⟩ := FileState.Waiting.observe hstage hs.clocked s.timers.now
    rw [show (s.file f).observe s.timers.now = _ from (hs.file_step hop).symm] at hwaiting
    exact hs.before hop rfl hsame (ih (hs.step hop) hwaiting hlength)
  | @meanwhile s op ops t since d d' hspares hfree hflush hstart hsoon rest ih =>
    have hop := Op.ordinary_of_spares hspares
    have hsame := FileState.Waiting.step_eq hstage hspares hfree hflush hstart hsoon
    have hwaiting : ((s.step op).1.file f).Waiting t d' := by
      rw [hs.file_step hop, hsame]
      exact hstage
    have hrest := ih (hs.step hop) hwaiting hlength
    exact hs.before hop hfree (congrArg FileState.snapshot hsame) hrest
  | @due s ms since d hdue =>
    rw [callsOf, callsOver, callsOver, List.append_nil]
    exact hs.due hstage hlength hlistens hdue

theorem Fresh.ready (hcap : 0 ≤ config.maxRetiredIds) (hs : Fresh config s)
    (hclocked : s.clocked = true) (hwho : who ∈ s.subscribers) (f : String) :
    s.Ready config who f := by
  obtain ⟨clocked, document, hfile⟩ := hs.file f
  refine ⟨hs.tidy_ordered.1, hs.regular, ?_, hclocked, hs.config, hwho⟩
  rw [hfile]
  exact FileState.settled_unread hcap clocked document

/-- **One update for a burst of edits.**  In a session with a clock, after any ordinary operations,
a file is open in a supported language and no pass over it is waited for.  Then it is edited any
number of times, and each time the clock stays short of the moment at which the pass would be due.
Meanwhile anything may be done to other files.  Everybody who cares for snapshots is told of this
file once, at the moment at which the wait since the last edit is over (or the wait since the
indexer was started after it), and finds the snapshot of the document that the last edit left. -/
theorem Fresh.one_update_per_burst {config : Config} (hcap : 0 ≤ config.maxRetiredIds) {s : Session}
    (hs : Fresh config s) (hclocked : s.clocked = true) {before : List Op}
    (hbefore : ∀ op ∈ before, op.ordinary = true) {f : String} {d₀ : Document}
    (hopen : (s.run before).buffer.get? f = some d₀)
    (hlanguage : config.isSupported d₀.language = true)
    (hquiet : (s.run before).timers.isPending f = false) {ops : List Op} {since : Int}
    {d : Document} (hburst : Burst f .calm (s.run before) ops since d)
    (hlength : d.length ≤ config.maxDocumentChars) {who : Subscriber}
    (hwho : who ∈ s.subscribers) (hlistens : who.listensTo .snapshotUpdated = true) :
    ToldOnce f who ((s.run before).callsOf ops) (since + config.delay) d := by
  have hready := (hs.ready hcap hclocked hwho f).run hbefore
  have hsupported : ((s.run before).file f).supported = some d₀ := by
    refine Option.filter_eq_some_iff.mpr ⟨hopen, ?_⟩
    rw [show ((s.run before).file f).config = config from hready.config]
    exact hlanguage
  have hdue : ((s.run before).file f).due = none := by
    rw [Timers.isPending_eq] at hquiet
    exact Option.not_isSome_iff_eq_none.mp (Bool.eq_false_iff.mp hquiet)
  have hcalm : ((s.run before).file f).Calm :=
    ⟨⟨d₀, hsupported⟩, hready.settled.current hdue⟩
  exact hburst.toldOnce hready hcalm hlength hlistens

/-- A session with a clock and two open documents, once both are indexed. -/
def indexedBoth : Session :=
  (new .default true (.holding [⟨"a.ts", "function f() {}".toList, "typescript", 1⟩,
    ⟨"b.ts", "function b() {}".toList, "typescript", 1⟩])).run [.advance 250]

/-- Three edits of one file, each just before the wait is over, among edits of the other one. -/
def typing : List Op :=
  [.update "b.ts" "function c() {}".toList, .update "a.ts" "function g() {}".toList,
    .advance 249, .edit "a.ts" 9 10 "h".toList, .flushFile "b.ts", .advance 200, .close "b.ts",
    .openDocument "a.ts" "function i() { i() }".toList "javascript" 0, .advance 500]

theorem typing_burst :
    Burst "a.ts" .calm indexedBoth typing 699
      ⟨"a.ts", "function i() { i() }".toList, "javascript", 4⟩ := by
  refine .calm rfl rfl ?_
  refine .edit (t := 250) (by decide +kernel) (by decide +kernel)
    (show _ = some ⟨"a.ts", "function g() {}".toList, "typescript", 2⟩ by decide +kernel) ?_
  refine .meanwhile rfl rfl rfl (by decide) (by rintro ms ⟨⟩; decide +kernel) ?_
  refine .edit (t := 499) (by decide +kernel) (by decide +kernel)
    (show _ = some ⟨"a.ts", "function h() {}".toList, "typescript", 3⟩ by decide +kernel) ?_
  refine .meanwhile rfl rfl rfl (by decide) (by simp) ?_
  refine .meanwhile rfl rfl rfl (by decide) (by rintro ms ⟨⟩; decide +kernel) ?_
  refine .meanwhile rfl rfl rfl (by decide) (by simp) ?_
  refine .edit (t := 699) (by decide +kernel) (by decide +kernel)
    (show _ = some ⟨"a.ts", "function i() { i() }".toList, "javascript", 4⟩ by decide +kernel) ?_
  exact .due (by decide +kernel)

/-- Nothing is waited for at first, and the three edits are told of together, 250 after the last
one. -/
theorem typing_toldOnce :
    indexedBoth.timers.isPending "a.ts" = false ∧
      ToldOnce "a.ts" .history (indexedBoth.callsOf typing) 949
        ⟨"a.ts", "function i() { i() }".toList, "javascript", 4⟩ := by
  have hquiet : indexedBoth.timers.isPending "a.ts" = false := by decide +kernel
  refine ⟨hquiet, ?_⟩
  exact Fresh.one_update_per_burst (by decide) (.new true _) rfl (by decide)
    (show _ = some ⟨"a.ts", "function f() {}".toList, "typescript", 1⟩ by decide +kernel)
    (by decide) hquiet typing_burst (by decide) (by decide +kernel) rfl

/-- At the moment at which the wait since an edit would be over, nobody is told of it if the indexer
has been started meanwhile, or if the session has been disposed of before. -/
theorem untold :
    let edited := Op.update "a.ts" "function g() {}".toList
    let disposed := indexedBoth.run [.dispose .session]
    indexedBoth.timers.isPending "a.ts" = false ∧ disposed.timers.isPending "a.ts" = false ∧
      disposed.buffer.get? "a.ts" = indexedBoth.buffer.get? "a.ts" ∧
      ∀ who ∈ indexedBoth.subscribers,
        newsOf "a.ts" who (indexedBoth.callsOf [edited, .advance 100, .start, .advance 150]) = [] ∧
        newsOf "a.ts" who (disposed.callsOf [edited, .advance 250]) = [] := by
  decide +kernel

end Session
end SymbolAtlas
