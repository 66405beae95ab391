import SymbolAtlas.Proofs.Fresh

/-!
# What an operation can do to what is derived

Snapshot, lineage, edges, baseline and events of a file are derived from its documents.  Closing
a file drops all of them but the events (`FileState.step_close`).  Any other operation prepares
the file for a pass, which leaves all of them alone, and then makes at most one pass over it
(`FileState.step_processed`).
-/

namespace SymbolAtlas
namespace FileState

/-- What is derived from the documents of a file. -/
structure Derived where
  snapshot : Option Snapshot
  lineage : Option Lineage
  edges : Option (List Edge)
  baseline : Option Snapshot
  events : List (Int × Change)

/-- What is derived from the documents of the file. -/
def derived (x : FileState) : Derived := ⟨x.snapshot, x.lineage, x.edges, x.baseline, x.events⟩

/-- The file once it is closed. -/
def closed (x : FileState) : FileState :=
  { x.forget with document := none, edges := none, baseline := none }

/-- From `x` to `y` an operation prepares the file `f` for a pass. -/
structure Prepares (f : String) (op : Session.Op) (x y : FileState) : Prop where
  derived : y.derived = x.derived
  config : y.config = x.config
  fault : op.ordinary = true → y.fault = x.fault
  /-- A document comes to be there by being opened, and gets another language by being opened
  again. -/
  document : y.document = x.document ∨ ∃ d, y.document = some d ∧
    ((∃ before, x.document = some before ∧ d.language = before.language) ∨
      ∃ content version, op = .openDocument f content d.language version)
  tracked : y.document = none → y.tracked = x.tracked

theorem Prepares.refl (f : String) (op : Session.Op) (x : FileState) : Prepares f op x x :=
  ⟨rfl, rfl, fun _ => rfl, Or.inl rfl, fun _ => rfl⟩

/-- A document is put in its place. -/
theorem prepares_document (f : String) (op : Session.Op) (x : FileState) {d : Document}
    (hd : (∃ before, x.document = some before ∧ d.language = before.language) ∨
      ∃ content version, op = .openDocument f content d.language version) :
    Prepares f op x { x with document := some d } :=
  ⟨rfl, rfl, fun _ => rfl, Or.inr ⟨d, rfl, hd⟩, fun hn => by simp at hn⟩

/-- A file that has a document may be tracked. -/
theorem Prepares.track {f : String} {op : Session.Op} {x y : FileState} (h : Prepares f op x y)
    (hy : y.document ≠ none) : Prepares f op x { y with tracked := true } :=
  ⟨h.derived, h.config, h.fault, h.document, fun hn => absurd hn hy⟩

section Preparation

variable {f : String} {op : Session.Op} {x y : FileState} (h : Prepares f op x y)
include h

theorem Prepares.snapshot : y.snapshot = x.snapshot := congrArg Derived.snapshot h.derived

theorem Prepares.lineage : y.lineage = x.lineage := congrArg Derived.lineage h.derived

theorem Prepares.edges : y.edges = x.edges := congrArg Derived.edges h.derived

theorem Prepares.baseline : y.baseline = x.baseline := congrArg Derived.baseline h.derived

theorem Prepares.events : y.events = x.events := congrArg Derived.events h.derived

/-- No document comes to nothing. -/
theorem Prepares.document_eq_none (hn : y.document = none) : x.document = none := by
  rcases h.document with hsame | ⟨d, hd, -⟩
  · exact hsame ▸ hn
  · exact absurd (hd.symm.trans hn) (by simp)

end Preparation

/-- At most one pass is made, with the waiting pass cancelled, made or scheduled. -/
def MayPass (y z : FileState) : Prop :=
  ∃ due, z = { y with due := due } ∨ Passes { y with due := due } z

theorem mayPass_self (y : FileState) : MayPass y y := ⟨y.due, Or.inl rfl⟩

/-- A pass may be made with any timer. -/
theorem mayPass_pass (y : FileState) (due : Option Int) : MayPass y { y with due := due }.pass :=
  ⟨due, Or.inr (passes_pass _)⟩

/-- Or in place of one that waits. -/
theorem mayPass_passNow (y : FileState) : MayPass y y.passNow := by
  rcases scheduledPass_cases { y with due := none } with ⟨h, -⟩ | h
  · exact ⟨none, Or.inl h⟩
  · rw [passNow, h]
    exact mayPass_pass y none

/-- Or be scheduled. -/
theorem mayPass_schedule (y : FileState) (now : Int) : MayPass y (y.schedule now) := by
  unfold schedule
  split_ifs
  · exact ⟨_, Or.inl rfl⟩
  · exact mayPass_passNow y

/-- Or flushed. -/
theorem mayPass_flush (y : FileState) : MayPass y y.flush := by
  unfold flush
  split_ifs
  · exact mayPass_passNow y
  · exact mayPass_self y

/-- Or become due. -/
theorem mayPass_passUntil (y : FileState) (target : Int) : MayPass y (y.passUntil target) := by
  unfold passUntil
  split_ifs
  · exact mayPass_passNow y
  · exact mayPass_self y

/-- Observing a file makes at most one pass over it, and none without a document. -/
theorem observe_cases (y : FileState) (now : Int) :
    y.observe now = y ∨
      y.document ≠ none ∧ MayPass { y with tracked := true } (y.observe now) := by
  unfold observe
  cases hd : y.supported with
  | none => exact Or.inl rfl
  | some d =>
    have hopen : y.document ≠ none := by simp [document_of_supported hd]
    exact Or.inr ⟨hopen, mayPass_schedule _ now⟩

/-- The file is prepared by an operation, and then at most one pass is made. -/
def Processed (f : String) (op : Session.Op) (x z : FileState) : Prop :=
  ∃ y, Prepares f op x y ∧ (z = y ∨ Passes y z)

variable {f : String} {op : Session.Op} {x y z : FileState}

/-- What is prepared may be passed over. -/
theorem Prepares.processed (h : Prepares f op x y) (hz : MayPass y z) : Processed f op x z := by
  obtain ⟨due, hz⟩ := hz
  exact ⟨{ y with due := due }, ⟨h.derived, h.config, h.fault, h.document, h.tracked⟩, hz⟩

/-- It may be taken up. -/
theorem Prepares.observe (h : Prepares f op x y) (now : Int) :
    Processed f op x (y.observe now) := by
  rcases observe_cases y now with hsame | ⟨hopen, hpass⟩
  · rw [hsame]
    exact h.processed (mayPass_self y)
  · exact (h.track hopen).processed hpass

/-- It may have changed. -/
theorem Prepares.changed (h : Prepares f op x y) (now : Int) :
    Processed f op x (y.receive f now (.contentChanged f)) := by
  simp only [receive, if_pos]
  split_ifs
  · exact h.processed (mayPass_schedule y now)
  · exact h.observe now

/-- A revised document is processed. -/
theorem processed_revise (x : FileState) (next : Document → Document)
    (hnext : ∀ d, (next d).language = d.language ∨
      ∃ content version, op = .openDocument f content (next d).language version) (now : Int) :
    Processed f op x (x.revise f now next) := by
  unfold revise
  cases hd : x.document with
  | none => exact (Prepares.refl f op x).processed (mayPass_self x)
  | some d =>
    refine (prepares_document f op x ?_).changed now
    rcases hnext d with hsame | hopened
    · exact Or.inl ⟨d, hd, hsame⟩
    · exact Or.inr hopened

/-- So is an opened one. -/
theorem processed_openDocument (f : String) (now : Int) (x : FileState) (content : Text)
    (language : String) (version : Int) :
    Processed f (.openDocument f content language version) x
      (x.openDocument f now content language version) := by
  unfold openDocument
  cases hd : x.document with
  | none =>
    simp only [receive, if_pos]
    exact (prepares_document f _ x (d := ⟨f, content, language, version⟩)
      (Or.inr ⟨content, version, rfl⟩)).observe now
  | some d =>
    exact processed_revise x (reopened content language)
      (fun d => Or.inr ⟨content, version, rfl⟩) now

/-- Only an open document can be closed. -/
theorem step_close (f : String) (now : Int) (x : FileState) :
    x.step f now (.close f) = if x.document.isSome then x.closed else x := by
  unfold step
  split_ifs with hopen
  · simp only [hopen, decide_true, Bool.and_self, if_true, receive]
    rfl
  · simp only [Bool.eq_false_iff.mpr hopen, Bool.and_false, Bool.false_eq_true, if_false]

/-- **An operation that does not close a file makes at most one pass over it.** -/
theorem step_processed (hop : op.regular = true) (hclose : op ≠ .close f) (now : Int)
    (x : FileState) : Processed f op x (x.step f now op) := by
  have hidle : Processed f op x x := (Prepares.refl f op x).processed (mayPass_self x)
  unfold step
  cases op with
  | openDocument g content language version =>
    dsimp only
    split_ifs with hg
    · subst hg
      exact processed_openDocument g now x content language version
    · exact hidle
  | update g content =>
    dsimp only
    split_ifs
    · exact processed_revise x (updated content) (fun d => Or.inl rfl) now
    · exact hidle
  | edit g first last text =>
    dsimp only
    split_ifs
    · exact processed_revise x (edited first last text) (fun d => Or.inl rfl) now
    · exact hidle
  | close g =>
    dsimp only
    split_ifs with hg
    · simp only [Bool.and_eq_true, decide_eq_true_eq] at hg
      exact absurd (congrArg Session.Op.close hg.1) hclose
    · exact hidle
  | advance ms => exact (Prepares.refl f _ x).processed (mayPass_passUntil x _)
  | flush => exact (Prepares.refl f _ x).processed (mayPass_flush x)
  | flushFile g =>
    dsimp only
    split_ifs
    · exact (Prepares.refl f _ x).processed (mayPass_flush x)
    · exact hidle
  | start => exact (Prepares.refl f _ x).observe now
  | recompute g =>
    dsimp only
    split_ifs
    · exact (Prepares.refl f _ x).processed (mayPass_pass x none)
    · exact hidle
  | setFault fault =>
    have hfault : Prepares f (.setFault fault) x { x with fault := fault } :=
      ⟨rfl, rfl, fun h => absurd h (by simp [Session.Op.ordinary]), Or.inl rfl, fun _ => rfl⟩
    exact hfault.processed (mayPass_self _)
  | plant d | uproot g | publish n | dispose part => cases hop

end FileState
end SymbolAtlas
