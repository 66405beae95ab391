import Mathlib.Data.List.Dedup
import Mathlib.Data.List.Induction
import SymbolAtlas.Proofs.Derived
import SymbolAtlas.Proofs.SymbolLife

/-!
# Files that stay open

While a file stays open in supported languages, a symbol that has left its snapshot does not come
back, and what the history records of it is one life (`Session.Fresh.symbols_live_once`).

The lineage of the file remembers the ids that are gone, as long as it has room for all of them, and
gives none of them away again (`FileState.Remembers`).  A `Period` begins when nothing is known of
the file, every operation continues it (`FileState.Period.step`), and failed passes and snapshots
that the history misses do not end it.
-/

namespace SymbolAtlas

/-! ### Files in order -/

namespace FileState

variable {f : String} {op : Session.Op} {x y z : FileState}

/-- What holds of a file whatever is made to fail: ids can be retired, only a file with a snapshot
has a lineage, and only a file with a document is tracked. -/
structure Orderly (x : FileState) : Prop where
  roomy : x.Roomy
  lineage : x.snapshot = none → x.lineage = none
  tracked : x.document = none → x.tracked = false

/-- A file that is not read is orderly. -/
theorem orderly_unread {config : Config} (hcap : 0 ≤ config.maxRetiredIds) (clocked : Bool)
    (document : Option Document) : (unread config clocked document).Orderly :=
  ⟨⟨hcap, fun l hl => by simp [unread] at hl⟩, fun _ => rfl, fun _ => rfl⟩

theorem Orderly.forget (h : x.Orderly) : x.forget.Orderly :=
  ⟨⟨h.roomy.config, fun l hl => by simp [FileState.forget] at hl⟩, fun _ => rfl, fun _ => rfl⟩

/-- It stays so while it is prepared. -/
theorem Orderly.prepares (h : x.Orderly) (hy : Prepares f op x y) : y.Orderly := by
  refine ⟨⟨?_, ?_⟩, ?_, fun hn => ?_⟩
  · rw [hy.config]
    exact h.roomy.config
  · rw [hy.config, hy.lineage]
    exact h.roomy.lineage
  · rw [hy.snapshot, hy.lineage]
    exact h.lineage
  · rw [hy.tracked hn]
    exact h.tracked (hy.document_eq_none hn)

/-- And when it is passed over. -/
theorem Orderly.passes (h : x.Orderly) (hz : Passes x z) : z.Orderly := by
  cases hz with
  | untracked | tooLong | stale | failed => exact h
  | dropped => exact h.forget
  | stranded hd ha => exact (h.roomy.not_stranded ha).elim
  | installed hd _ _ _ ha =>
    refine ⟨⟨h.roomy.config, fun l hl => ?_⟩, fun hn => ?_, h.tracked⟩
    · rw [← Option.some.inj hl]
      exact (h.roomy.assigned ha).1
    · simp [FileState.installed] at hn

/-- Every operation keeps a file in order. -/
theorem Orderly.step (h : x.Orderly) (hop : op.regular = true) (now : Int) :
    (x.step f now op).Orderly := by
  by_cases hclose : op = .close f
  · subst hclose
    rw [step_close]
    split_ifs
    · exact ⟨⟨h.roomy.config, h.forget.roomy.lineage⟩, fun _ => rfl, fun _ => rfl⟩
    · exact h
  · obtain ⟨y, hy, rfl | hz⟩ := step_processed hop hclose now x
    · exact h.prepares hy
    · exact (h.prepares hy).passes hz

/-! ### Room for all ids that are gone -/

/-- The ids that the file's lineage remembers as retired. -/
def retired (x : FileState) : List String := (x.lineage.map Lineage.retired).getD []

theorem retired_eq (x : FileState) (f : String) (capacity : Int) :
    (x.lineage.getD (.new f capacity)).retired = x.retired := by
  unfold retired
  cases x.lineage <;> rfl

/-- The lineage of the file remembers the ids that are gone, and no others. -/
structure Remembers (gone : List String) (x : FileState) : Prop where
  nodup : x.retired.Nodup
  mem_retired : ∀ id, id ∈ x.retired ↔ id ∈ gone

/-- The history of the file is accounted for since its first snapshot. -/
structure Accounts (f : String) (gone : List String) (first : Option Snapshot)
    (recorded : List Change) (x : FileState) : Prop where
  unseen : x.snapshot = none → x.baseline = none ∧ gone = [] ∧ first = none ∧ recorded = []
  seen : ∀ c, x.snapshot = some c → ∃ b fst, x.baseline = some b ∧ first = some fst ∧
    Accounted f gone fst b c recorded

/-- A file while it stays open in supported languages: the ids `gone` have left its snapshots
since the first one, and the changes `recorded` have been recorded. -/
structure Period (f : String) (gone : List String) (first : Option Snapshot)
    (recorded : List Change) (x : FileState) : Prop where
  orderly : x.Orderly
  supported : ∀ d, x.document = some d →
    x.snapshot = none ∨ x.config.isSupported d.language = true
  remembers : Remembers gone x
  accounts : Accounts f gone first recorded x

/-- The ids that leave the snapshot from one state of a file to another. -/
def newlyGone (x z : FileState) : List String :=
  Lineage.goneIds x.snapshot (Lineage.previousIds z.snapshot)

variable {gone : List String} {first : Option Snapshot} {recorded : List Change} {d : Document}
  {ids : List String} {l : Lineage} {c' : Snapshot}

/-- New ids are not among those that are gone, and the ids that leave are remembered too. -/
theorem Remembers.installed (h : Remembers gone x) (hx : x.Roomy)
    (ha : x.assign d = (.ok ids, l))
    (hroom : ((gone ++ Lineage.goneIds x.snapshot ids).dedup.length : Int) ≤
      x.config.maxRetiredIds) (c' : Snapshot) :
    (∀ id ∈ ids, id ∈ Lineage.previousIds x.snapshot ∨ id ∉ gone) ∧
      Remembers (gone ++ Lineage.goneIds x.snapshot ids) (x.installed c' l) := by
  obtain ⟨hcap, hassigned⟩ := hx.assigned ha
  have hfresh := hassigned.fresh
  have hretired := hassigned.retired
  rw [retired_eq] at hfresh hretired
  rw [← hassigned.capacity, hcap] at hretired
  obtain ⟨hnodup, hmem⟩ := Lineage.foldl_keepRecent hroom
    (List.subset_append_right gone (Lineage.goneIds x.snapshot ids))
    (fun id hid => List.mem_append_left _ ((h.mem_retired id).mp hid)) h.nodup
  rw [← hretired] at hnodup hmem
  refine ⟨fun id hid => ?_, hnodup, fun id => ?_⟩
  · rw [← h.mem_retired]
    exact hfresh id hid
  · rw [List.mem_append, ← h.mem_retired]
    exact hmem id

/-- The history compares a new snapshot with its baseline, or misses it. -/
theorem Accounts.installed (h : Accounts f gone first recorded x) (hc' : c'.OfFile f)
    (hfresh : ∀ id ∈ c'.declaredIds, id ∈ Lineage.previousIds x.snapshot ∨ id ∉ gone)
    (l : Lineage) :
    ∃ cs, (x.installed c' l).events = x.events ++ cs ∧
      Accounts f (gone ++ x.newlyGone (x.installed c' l)) (first.or (some c'))
        (recorded ++ cs.map Prod.snd) (x.installed c' l) := by
  have hseen : ∀ {gone' fst b recorded'}, (x.installed c' l).baseline = some b →
      Accounted f gone' fst b c' recorded' →
      Accounts f gone' (some fst) recorded' (x.installed c' l) := by
    intro gone' fst b recorded' hb haccounted
    refine ⟨fun hn => absurd hn (by simp [FileState.installed]), fun c hc => ?_⟩
    obtain rfl := Option.some.inj hc
    exact ⟨b, fst, hb, rfl, haccounted⟩
  cases hc : x.snapshot with
  | none =>
    obtain ⟨hb, rfl, rfl, rfl⟩ := h.unseen hc
    have hgone : x.newlyGone (x.installed c' l) = [] := by
      rw [newlyGone, hc]
      rfl
    refine ⟨[], by simp [FileState.installed, changesWith, hb], ?_⟩
    rw [hgone]
    exact hseen (by simp [FileState.installed, hb]) (.begin hc')
  | some c =>
    obtain ⟨b, fst, hb, rfl, haccounted⟩ := h.seen c hc
    rw [hc] at hfresh
    have hinstall := haccounted.install hc' hfresh
    have hgone : x.newlyGone (x.installed c' l) =
        c.declaredIds.filter (· ∉ c'.declaredIds) := by
      rw [newlyGone, hc]
      rfl
    rw [hgone]
    by_cases hfail : x.fault = some .changes
    · refine ⟨[], by simp [FileState.installed, hfail, hb], ?_⟩
      rw [List.map_nil, List.append_nil]
      exact hseen (by simp [FileState.installed, hfail, hb]) hinstall
    · refine ⟨(b.changesTo c').map fun c => (c'.version, c),
        by simp [FileState.installed, changesWith, hfail, hb], ?_⟩
      have hchanges : ((b.changesTo c').map fun c => (c'.version, c)).map Prod.snd =
          b.changesTo c' := by rw [List.map_map]; exact List.map_id _
      rw [hchanges]
      exact hseen (by simp [FileState.installed, hfail]) hinstall.record

/-! ### A period, step by step -/

/-- A period can begin whenever there is neither a snapshot nor a baseline. -/
theorem Orderly.period (h : x.Orderly) (hsnapshot : x.snapshot = none)
    (hbaseline : x.baseline = none) (f : String) : Period f [] x.snapshot [] x := by
  have hretired : x.retired = [] := by simp [retired, h.lineage hsnapshot]
  refine ⟨h, fun _ _ => Or.inl hsnapshot, ⟨by simp [hretired], by simp [hretired]⟩,
    fun _ => ⟨hbaseline, rfl, hsnapshot, rfl⟩, fun c hc => ?_⟩
  exact absurd (hsnapshot.symm.trans hc) (by simp)

/-- A period goes on from `x` to `z`. -/
def Continues (f : String) (gone : List String) (first : Option Snapshot) (recorded : List Change)
    (x z : FileState) : Prop :=
  ∃ cs, z.events = x.events ++ cs ∧
    Period f (gone ++ x.newlyGone z) (first.or z.snapshot) (recorded ++ cs.map Prod.snd) z

/-- A period goes on if nothing happens. -/
theorem Period.idle (h : Period f gone first recorded x) :
    Continues f gone first recorded x x := by
  have hgone : x.newlyGone x = [] := by simp [newlyGone, Lineage.goneIds]
  have hfirst : first.or x.snapshot = first := by
    cases hc : x.snapshot with
    | none => simp
    | some c =>
      obtain ⟨b, fst, -, rfl, -⟩ := h.accounts.seen c hc
      rfl
  refine ⟨[], by simp, ?_⟩
  rw [hgone, hfirst, List.append_nil, List.map_nil, List.append_nil]
  exact h

/-- And while the document stays in a supported language. -/
theorem Period.prepares (h : Period f gone first recorded x) (hy : Prepares f op x y)
    (hlanguage : ∀ content language version, op = .openDocument f content language version →
      x.config.isSupported language = true) : Period f gone first recorded y := by
  have hretired : y.retired = x.retired := by rw [retired, retired, hy.lineage]
  refine ⟨h.orderly.prepares hy, fun d hd => ?_,
    ⟨hretired ▸ h.remembers.nodup, hretired ▸ h.remembers.mem_retired⟩, ?_, ?_⟩
  · rw [hy.config, hy.snapshot]
    rcases hy.document with hsame | ⟨d', hd', ⟨before, hbefore, hsame⟩ | ⟨content, version, hop⟩⟩
    · exact h.supported d (hsame ▸ hd)
    · obtain rfl := Option.some.inj (hd.symm.trans hd')
      exact hsame ▸ h.supported before hbefore
    · obtain rfl := Option.some.inj (hd.symm.trans hd')
      exact Or.inr (hlanguage _ _ _ hop)
  · rw [hy.snapshot, hy.baseline]
    exact h.accounts.unseen
  · rw [hy.snapshot, hy.baseline]
    exact h.accounts.seen

/-- A period goes on with a file that is dropped before it has had a snapshot. -/
theorem Period.dropped (h : Period f gone first recorded x) (hsnapshot : x.snapshot = none)
    (horderly : x.forget.Orderly) : Continues f gone first recorded x x.forget := by
  obtain ⟨hbaseline, rfl, rfl, rfl⟩ := h.accounts.unseen hsnapshot
  have hgone : x.newlyGone x.forget = [] := by
    rw [newlyGone, hsnapshot]
    rfl
  refine ⟨[], by simp [forget], ?_⟩
  rw [hgone]
  exact horderly.period rfl hbaseline f

/-- And when it is passed over, if there is room. -/
theorem Period.passes (h : Period f gone first recorded x) (hz : Passes x z)
    (hfiled : ∀ d, z.document = some d → d.fileId = f)
    (hroom : ((gone ++ x.newlyGone z).dedup.length : Int) ≤ x.config.maxRetiredIds) :
    Continues f gone first recorded x z := by
  have horderly := h.orderly.passes hz
  cases hz with
  | untracked | tooLong | stale | failed => exact h.idle
  | dropped hd ht =>
    refine h.dropped ?_ horderly
    -- without a document the file is not tracked, so there is one that is not supported
    cases hdoc : x.document with
    | none => exact absurd (ht.symm.trans (h.orderly.tracked hdoc)) (by decide)
    | some d =>
      refine (h.supported d hdoc).resolve_right fun hlanguage => ?_
      have hsupported : x.supported = some d := Option.filter_eq_some_iff.mpr ⟨hdoc, hlanguage⟩
      exact absurd (hsupported.symm.trans hd) (by simp)
  | stranded hd ha => exact (h.orderly.roomy.not_stranded ha).elim
  | @installed d ids l hd hlong hold hf ha =>
    have hopen : x.document = some d := document_of_supported hd
    have hlen := (h.orderly.roomy.assigned ha).2.length
    have hids : (Snapshot.ofOutline d (Outline.ofText d.content) ids).declaredIds = ids :=
      Snapshot.declaredIds_ofOutline d hlen
    have hofFile := Snapshot.ofFile_ofOutline d hlen
    rw [hfiled d hopen] at hofFile
    generalize Snapshot.ofOutline d (Outline.ofText d.content) ids = c' at *
    have hgone : x.newlyGone (x.installed c' l) = Lineage.goneIds x.snapshot ids := by
      rw [← hids]
      rfl
    rw [hgone] at hroom
    obtain ⟨hfresh, hremembers⟩ := h.remembers.installed h.orderly.roomy ha hroom c'
    obtain ⟨cs, hevents, haccounts⟩ := h.accounts.installed hofFile (hids ▸ hfresh) l
    refine ⟨cs, hevents, horderly, fun d' hd' => Or.inr ?_, hgone ▸ hremembers, haccounts⟩
    obtain rfl := Option.some.inj (hopen.symm.trans hd')
    exact (Option.filter_eq_some_iff.mp hd).2

/-- **An operation continues a period**, if the file stays open in a supported language and there
is room for the ids that leave. -/
theorem Period.step (h : Period f gone first recorded x) (hop : op.regular = true)
    (hclose : op ≠ .close f)
    (hlanguage : ∀ content language version, op = .openDocument f content language version →
      x.config.isSupported language = true) (now : Int)
    (hfiled : ∀ d, (x.step f now op).document = some d → d.fileId = f)
    (hroom : ((gone ++ x.newlyGone (x.step f now op)).dedup.length : Int) ≤
      x.config.maxRetiredIds) :
    Continues f gone first recorded x (x.step f now op) := by
  obtain ⟨y, hy, hz⟩ := step_processed hop hclose now x
  have hperiod := h.prepares hy hlanguage
  have hcontinues : Continues f gone first recorded y (x.step f now op) := by
    rcases hz with hz | hz
    · rw [hz]
      exact hperiod.idle
    · refine hperiod.passes hz hfiled ?_
      rw [newlyGone, hy.snapshot, hy.config]
      exact hroom
  rwa [Continues, newlyGone, hy.snapshot, hy.events] at hcontinues

/-- A symbol that the file shows is still shown, or it is among those that leave. -/
theorem Continues.shows (h : Continues f gone first recorded x z)
    (hx : Period f gone first recorded x) {c : Snapshot} (hc : x.snapshot = some c) {id : String}
    (hid : id ∈ c.ids) :
    (∃ c', z.snapshot = some c' ∧ id ∈ c'.ids) ∨ id ∈ x.newlyGone z := by
  obtain ⟨cs, -, hz⟩ := h
  obtain ⟨b, fst, -, rfl, haccounted⟩ := hx.accounts.seen c hc
  cases hc' : z.snapshot with
  | none => exact absurd (hz.accounts.unseen hc').2.2.1 (by simp)
  | some c' =>
    obtain ⟨b', fst', -, -, haccounted'⟩ := hz.accounts.seen c' hc'
    rcases haccounted.snapshot.mem_ids_iff.mp hid with hfile | hdeclared
    · exact Or.inl ⟨c', rfl, haccounted'.snapshot.mem_ids_iff.mpr (Or.inl hfile)⟩
    · by_cases hin : id ∈ c'.declaredIds
      · exact Or.inl ⟨c', rfl, haccounted'.snapshot.mem_ids_iff.mpr (Or.inr hin)⟩
      · refine Or.inr ?_
        rw [newlyGone, hc, hc']
        exact List.mem_filter.mpr ⟨hdeclared, decide_eq_true hin⟩

/-- Of the symbols that are gone the file shows at most its own. -/
theorem Period.eq_fileSymbolId (h : Period f gone first recorded x) {id : String}
    (hgone : id ∈ gone) {c : Snapshot} (hc : x.snapshot = some c) (hid : id ∈ c.ids) :
    id = fileSymbolId f := by
  obtain ⟨b, fst, -, -, haccounted⟩ := h.accounts.seen c hc
  refine (haccounted.snapshot.mem_ids_iff.mp hid).resolve_right fun hdeclared => ?_
  exact haccounted.apart id hdeclared hgone

/-! ### The beginning of a period -/

theorem document_observe (x : FileState) (now : Int) : (x.observe now).document = x.document := by
  rcases observe_cases x now with hsame | ⟨-, due, hz | hz⟩
  · rw [hsame]
  · rw [hz]
  · generalize x.observe now = z at hz
    cases hz <;> rfl

/-- Without a baseline nothing is recorded. -/
theorem events_observe (hb : x.baseline = none) (now : Int) :
    (x.observe now).events = x.events := by
  rcases observe_cases x now with hsame | ⟨-, due, hz | hz⟩
  · rw [hsame]
  · rw [hz]
  · generalize x.observe now = z at hz
    cases hz with
    | installed => simp [FileState.installed, changesWith, hb]
    | _ => rfl

/-- A period can begin with the first look at a file. -/
theorem period_unread {config : Config} (hcap : 0 ≤ config.maxRetiredIds) (clocked : Bool)
    {document : Option Document} (hfiled : ∀ d, document = some d → d.fileId = f) :
    Period f [] ((unread config clocked document).observe 0).snapshot []
      ((unread config clocked document).observe 0) := by
  have hbegin := (orderly_unread hcap clocked document).period rfl rfl f
  have hstart : Session.Op.start.regular = true := rfl
  obtain ⟨cs, hevents, hperiod⟩ := hbegin.step hstart (by simp) (by simp) 0
    (fun d hd => hfiled d ((document_observe _ 0).symm.trans hd)) hcap
  have hcs : cs = [] := (hevents.symm.trans (events_observe rfl 0) :)
  subst hcs
  exact hperiod

end FileState

/-! ### Sessions -/

namespace Session

/-- The ids of declarations that leave the snapshot of a file during some operations. -/
def retiredIds (f : String) (s : Session) : List Op → List String
  | [] => []
  | op :: ops =>
    Lineage.goneIds (s.snapshot? f) (Lineage.previousIds ((s.step op).1.snapshot? f)) ++
      retiredIds f (s.step op).1 ops

/-- The first snapshot that a file has during some operations. -/
def firstSnapshot (f : String) (s : Session) : List Op → Option Snapshot
  | [] => s.snapshot? f
  | op :: ops => (s.snapshot? f).or (firstSnapshot f (s.step op).1 ops)

/-- The changes recorded for a file from one session to a later one. -/
def recordedSince (f : String) (s t : Session) : List Change :=
  ((t.history.eventsOf f).drop (s.history.eventsOf f).length).map Event.change

/-- The snapshot of a file has a symbol with the id `x`. -/
def Shows (s : Session) (f x : String) : Prop := ∃ c, s.snapshot? f = some c ∧ x ∈ c.ids

instance (s : Session) (f x : String) : Decidable (s.Shows f x) :=
  inferInstanceAs (Decidable (∃ c ∈ s.snapshot? f, x ∈ c.ids))

/-- During some operations a file is not closed, and opened only in supported languages. -/
structure StaysOpen (config : Config) (f : String) (ops : List Op) : Prop where
  regular : ∀ op ∈ ops, op.regular = true
  notClosed : .close f ∉ ops
  supported : ∀ content language version, .openDocument f content language version ∈ ops →
    config.isSupported language = true

/-- What is retired in two runs is retired in one. -/
theorem retiredIds_append (f : String) (s : Session) (before after : List Op) :
    retiredIds f s (before ++ after) =
      retiredIds f s before ++ retiredIds f (s.run before) after := by
  induction before generalizing s with
  | nil => rfl
  | cons op before ih =>
    rw [List.cons_append, retiredIds, retiredIds, ih, List.append_assoc]
    rfl

theorem retiredIds_append_singleton (f : String) (s : Session) (ops : List Op) (op : Op) :
    retiredIds f s (ops ++ [op]) = retiredIds f s ops ++
      ((s.run ops).file f).newlyGone ((s.run (ops ++ [op])).file f) := by
  rw [retiredIds_append, run_append, retiredIds, retiredIds, List.append_nil]
  rfl

theorem firstSnapshot_append_singleton (f : String) (s : Session) (ops : List Op) (op : Op) :
    firstSnapshot f s (ops ++ [op]) =
      (firstSnapshot f s ops).or ((s.run (ops ++ [op])).snapshot? f) := by
  induction ops generalizing s with
  | nil => rfl
  | cons op' ops ih =>
    rw [List.cons_append, firstSnapshot, firstSnapshot, ih, Option.or_assoc]
    rfl

/-- What is recorded is what was added. -/
theorem recordedSince_eq {f : String} {s t : Session} {cs : List (Int × Change)}
    (h : (t.file f).events = (s.file f).events ++ cs) : recordedSince f s t = cs.map Prod.snd := by
  have hlength : (s.file f).events.length = (s.history.eventsOf f).length := List.length_map ..
  have hdrop : (t.file f).events.drop (s.file f).events.length = cs := by rw [h, List.drop_left]
  rw [← hdrop, hlength, Session.file, ← List.map_drop, List.map_map]
  rfl

variable {config : Config} {f : String} {s : Session} {ops : List Op}

/-- There is room for all ids that leave during some operations. -/
def HasRoom (f : String) (s : Session) (ops : List Op) : Prop :=
  ((retiredIds f s ops).dedup.length : Int) ≤ s.config.maxRetiredIds

/-- What stays open was open all along. -/
theorem StaysOpen.of_prefix {early : List Op} (h : StaysOpen config f ops)
    (hearly : early <+: ops) : StaysOpen config f early :=
  ⟨fun op hop => h.regular op (hearly.subset hop), fun hop => h.notClosed (hearly.subset hop),
    fun content language version hop => h.supported content language version (hearly.subset hop)⟩

/-- What is retired early is retired. -/
theorem retiredIds_subset {early : List Op} (hearly : early <+: ops) :
    retiredIds f s early ⊆ retiredIds f s ops := by
  obtain ⟨late, rfl⟩ := hearly
  rw [retiredIds_append]
  exact List.subset_append_left ..

/-- Where there is room there was room. -/
theorem HasRoom.of_prefix {early : List Op} (h : HasRoom f s ops) (hearly : early <+: ops) :
    HasRoom f s early := by
  have hsubset : (retiredIds f s early).dedup ⊆ (retiredIds f s ops).dedup := fun id hid =>
    List.mem_dedup.mpr (retiredIds_subset hearly (List.mem_dedup.mp hid))
  have hlength := ((List.nodup_dedup _).subperm hsubset).length_le
  exact Int.le_trans (Int.ofNat_le.mpr hlength) h

/-- Each operation continues the period. -/
theorem continues_run (hs : s.Regular) {op : Op} (hopen : StaysOpen s.config f (ops ++ [op]))
    (hroom : HasRoom f s (ops ++ [op])) {first : Option Snapshot} {recorded : List Change}
    (h : FileState.Period f (retiredIds f s ops) first recorded ((s.run ops).file f)) :
    FileState.Continues f (retiredIds f s ops) first recorded ((s.run ops).file f)
      ((s.run (ops ++ [op])).file f) := by
  have hop : op ∈ ops ++ [op] := by simp
  have hdisposes : ∀ op' ∈ ops ++ [op], op'.disposes = false := fun op' hop' =>
    Op.disposes_of_regular (hopen.regular op' hop')
  have hearly : ∀ op' ∈ ops, op'.disposes = false := fun op' hop' => hdisposes op' (by simp [hop'])
  have hconfig : ((s.run ops).file f).config = s.config := config_run s hearly
  have hfile : (s.run (ops ++ [op])).file f =
      ((s.run ops).file f).step f (s.run ops).timers.now op := by
    rw [run_append]
    exact file_step (hs.run hearly) (hdisposes op hop) f
  have hstep := h.step (hopen.regular op hop) (fun hclose => hopen.notClosed (hclose ▸ hop))
    (fun content language version hopened => by
      rw [hconfig]
      exact hopen.supported content language version (hopened ▸ hop))
    (s.run ops).timers.now
  rw [← hfile, ← retiredIds_append_singleton, hconfig] at hstep
  exact hstep ((hs.run hdisposes).filed f) hroom

/-- **A period goes on as long as the file stays open.** -/
theorem period_run (hs : s.Regular) (h : FileState.Period f [] (s.snapshot? f) [] (s.file f))
    (hopen : StaysOpen s.config f ops) (hroom : HasRoom f s ops) :
    ∃ cs, ((s.run ops).file f).events = (s.file f).events ++ cs ∧
      FileState.Period f (retiredIds f s ops) (firstSnapshot f s ops) (cs.map Prod.snd)
        ((s.run ops).file f) := by
  induction ops using List.reverseRecOn with
  | nil => exact ⟨[], by simp [run], h⟩
  | append_singleton ops op ih =>
    have hearly : ops <+: ops ++ [op] := List.prefix_append ..
    obtain ⟨cs, hevents, hperiod⟩ := ih (hopen.of_prefix hearly) (hroom.of_prefix hearly)
    obtain ⟨cs', hevents', hperiod'⟩ := continues_run hs hopen hroom hperiod
    refine ⟨cs ++ cs', ?_, ?_⟩
    · rw [hevents', hevents, List.append_assoc]
    · rw [retiredIds_append_singleton, firstSnapshot_append_singleton, List.map_append]
      exact hperiod'

/-- A symbol that was shown at some time is still shown, or it is among those that have left. -/
theorem shows_or_retired (hs : s.Regular)
    (h : FileState.Period f [] (s.snapshot? f) [] (s.file f)) (hopen : StaysOpen s.config f ops)
    (hroom : HasRoom f s ops) {early : List Op} (hearly : early <+: ops) {x : String}
    (hx : (s.run early).Shows f x) : (s.run ops).Shows f x ∨ x ∈ retiredIds f s ops := by
  induction ops using List.reverseRecOn with
  | nil => exact Or.inl (List.prefix_nil.mp hearly ▸ hx)
  | append_singleton ops op ih =>
    rcases List.prefix_concat_iff.mp hearly with rfl | hearly
    · exact Or.inl hx
    · have hbefore : ops <+: ops ++ [op] := List.prefix_append ..
      rw [retiredIds_append_singleton]
      rcases ih (hopen.of_prefix hbefore) (hroom.of_prefix hbefore) hearly with
        ⟨c, hc, hxc⟩ | hretired
      · obtain ⟨cs, -, hperiod⟩ :=
          period_run hs h (hopen.of_prefix hbefore) (hroom.of_prefix hbefore)
        rcases (continues_run hs hopen hroom hperiod).shows hperiod hc hxc with hshows | hgone
        · exact Or.inl hshows
        · exact Or.inr (List.mem_append_right _ hgone)
      · exact Or.inr (List.mem_append_left _ hretired)

/-- A symbol that has left is not shown any more. -/
theorem not_shows_of_left (hs : s.Regular)
    (h : FileState.Period f [] (s.snapshot? f) [] (s.file f)) (hopen : StaysOpen s.config f ops)
    (hroom : HasRoom f s ops) {early late : List Op} (hearly : early <+: late)
    (hlate : late <+: ops) {x : String} (hx : (s.run early).Shows f x)
    (hleft : ¬ (s.run late).Shows f x) : ¬ (s.run ops).Shows f x := by
  rintro ⟨c, hc, hxc⟩
  have hopen' := hopen.of_prefix hlate
  have hroom' := hroom.of_prefix hlate
  have hretired := (shows_or_retired hs h hopen' hroom' hearly hx).resolve_left hleft
  obtain ⟨cs, -, hperiod⟩ := period_run hs h hopen hroom
  have hfile := hperiod.eq_fileSymbolId (retiredIds_subset hlate hretired) hc hxc
  -- only the file itself could have been shown all the time, and it is never missing
  obtain ⟨cs', -, hperiod'⟩ := period_run hs h hopen' hroom'
  cases hc' : (s.run late).snapshot? f with
  | none => exact absurd hretired ((hperiod'.accounts.unseen hc').2.1 ▸ List.not_mem_nil)
  | some c' =>
    obtain ⟨b, fst, -, -, haccounted⟩ := hperiod'.accounts.seen c' hc'
    exact hleft ⟨c', hc', haccounted.snapshot.mem_ids_iff.mpr (Or.inl hfile)⟩

/-- All files of a session are orderly. -/
theorem Fresh.orderly (hs : Fresh config s) (hcap : 0 ≤ config.maxRetiredIds)
    (hops : ∀ op ∈ ops, op.regular = true) (f : String) : ((s.run ops).file f).Orderly := by
  refine file_run (P := FileState.Orderly) (fun op hop => Op.disposes_of_regular hop)
    (fun x now op hop hx => FileState.Orderly.step hx hop now) hs.regular ?_ hops
  obtain ⟨clocked, document, hfile⟩ := hs.file f
  have hstart : Op.start.regular = true := rfl
  rw [hfile]
  exact (FileState.orderly_unread hcap clocked document).step (f := f) hstart 0

/-- A period begins with the session, or when the file has neither a snapshot nor a baseline. -/
theorem Fresh.period (hs : Fresh config s) (hcap : 0 ≤ config.maxRetiredIds)
    (hops : ∀ op ∈ ops, op.regular = true)
    (hbegin : ops = [] ∨
      (s.run ops).snapshot? f = none ∧ (s.run ops).history.hasBaseline f = false) :
    FileState.Period f [] ((s.run ops).snapshot? f) [] ((s.run ops).file f) := by
  rcases hbegin with rfl | ⟨hsnapshot, hbaseline⟩
  · obtain ⟨clocked, document, hfile⟩ := hs.file f
    have hdocument : s.buffer.get? f = document := by
      have hobserve := FileState.document_observe (.unread config clocked document) 0
      rwa [← hfile] at hobserve
    have hperiod := FileState.period_unread hcap clocked (hdocument ▸ hs.regular.filed f)
    rwa [← hfile] at hperiod
  · exact (hs.orderly hcap hops f).period hsnapshot
      (Option.not_isSome_iff_eq_none.mp (Bool.eq_false_iff.mp hbaseline)) f

/-- **While a file stays open every symbol lives once.**  The period begins with the session or
when nothing is known of the file, and there is room for the ids that leave during it.  What is
recorded of a symbol is one life, begun before if the first snapshot has it, and a symbol that has
left the snapshot is in no later one. -/
theorem Fresh.symbols_live_once (hs : Fresh config s) {before during : List Op}
    (hbefore : ∀ op ∈ before, op.regular = true)
    (hbegin : before = [] ∨
      (s.run before).snapshot? f = none ∧ (s.run before).history.hasBaseline f = false)
    (hopen : StaysOpen config f during)
    (hroom : ((retiredIds f (s.run before) during).dedup.length : Int) ≤ config.maxRetiredIds) :
    (∀ x, OneLife x (∃ first ∈ firstSnapshot f (s.run before) during, x ∈ first.ids)
      ((recordedSince f (s.run before) (s.run (before ++ during))).filter (·.symbolId = x))) ∧
    ∀ x early late last, early <+: late → late <+: last → last <+: during →
      (s.run (before ++ early)).Shows f x → ¬ (s.run (before ++ late)).Shows f x →
        ¬ (s.run (before ++ last)).Shows f x := by
  have hdisposes : ∀ op ∈ before, op.disposes = false := fun op hop =>
    Op.disposes_of_regular (hbefore op hop)
  have hregular : (s.run before).Regular := hs.regular.run hdisposes
  have hconfig : (s.run before).config = config := (config_run s hdisposes).trans hs.config
  have hcap : 0 ≤ config.maxRetiredIds := Int.le_trans (Int.natCast_nonneg _) hroom
  have hperiod := hs.period hcap hbefore hbegin
  rw [← hconfig] at hopen
  have hroom' : HasRoom f (s.run before) during := by rwa [HasRoom, hconfig]
  simp only [run_append]
  constructor
  · intro x
    obtain ⟨cs, hevents, hend⟩ := period_run hregular hperiod hopen hroom'
    rw [recordedSince_eq hevents]
    cases hc : ((s.run before).run during).snapshot? f with
    | none =>
      obtain ⟨-, -, hfirst, hrecorded⟩ := hend.accounts.unseen hc
      rw [hrecorded]
      exact (living_nil x _).oneLife
    | some c =>
      obtain ⟨b, first, -, hfirst, haccounted⟩ := hend.accounts.seen c hc
      simpa [hfirst] using (haccounted.life x).oneLife
  · intro x early late last hearly hlate hlast hshows hleft
    exact not_shows_of_left hregular hperiod (hopen.of_prefix hlast) (hroom'.of_prefix hlast)
      hearly hlate hshows hleft

/-- A document is open for a while. -/
def openedOnce : List Op :=
  [.openDocument "a.ts" "function a() {}".toList "typescript" 1, .close "a.ts"]

/-- The document is opened again, emptied without the history taking notice, and filled again. -/
def emptiedUnseen : List Op :=
  [.openDocument "a.ts" "function a() {}\nfunction b() {}".toList "typescript" 1,
    .setFault (some .changes), .update "a.ts" [], .setFault none,
    .update "a.ts" "function a() {}".toList, .update "a.ts" "function c() {}".toList]

/-- The function that comes back has another id, though the history has not seen it leave. -/
theorem emptiedUnseen_live_once :
    let s := new .default false (.holding [])
    recordedSince "a.ts" (s.run openedOnce) (s.run (openedOnce ++ emptiedUnseen)) =
        [.removed "a.ts::a@1" "a", .removed "a.ts::b@2" "b", .added "a.ts::a@1#2" "a",
          .renamed "a.ts::a@1#2" "a" "c"] ∧
      (∀ x, OneLife x
        (∃ first ∈ firstSnapshot "a.ts" (s.run openedOnce) emptiedUnseen, x ∈ first.ids)
        ((recordedSince "a.ts" (s.run openedOnce) (s.run (openedOnce ++ emptiedUnseen))).filter
          (·.symbolId = x))) ∧
      ¬ (s.run (openedOnce ++ emptiedUnseen)).Shows "a.ts" "a.ts::a@1" := by
  have hs : Fresh .default (new .default false (.holding [])) := .new false []
  have hbefore : ∀ op ∈ openedOnce, op.regular = true := by decide
  have hopen : StaysOpen .default "a.ts" emptiedUnseen := by
    refine ⟨by decide, by decide, fun content language version hop => ?_⟩
    obtain ⟨-, rfl, -⟩ : _ ∧ language = "typescript" ∧ _ := by simpa [emptiedUnseen] using hop
    decide
  obtain ⟨hlife, hgone⟩ :=
    Fresh.symbols_live_once hs hbefore (by decide +kernel) hopen (by decide +kernel)
  refine ⟨by decide +kernel, hlife, ?_⟩
  exact hgone "a.ts::a@1" (emptiedUnseen.take 1) (emptiedUnseen.take 3) emptiedUnseen
    (by decide) (by decide) (by decide) (by decide +kernel) (by decide +kernel)

end Session

end SymbolAtlas
