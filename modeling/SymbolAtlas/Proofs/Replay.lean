import Mathlib.Data.List.Basic
import Mathlib.Logic.Function.Basic
import SymbolAtlas.Proofs.Recording

/-!
# The history replays to the present

The events of a file tell what became of its symbols.  Read one after the other by their labels
and their lines of text (`Names.replay`), they lead from the names in the snapshot that was the
first baseline to the names in the present one (`Session.begun_replays`), and each of them applies
where its turn comes.  Comparing two snapshots lists changes that do so in whatever order, since no
symbol changes twice (`Names.replay_changes`).
-/

namespace SymbolAtlas

/-! ### Replaying events -/

/-- What follows `lead` in a line. -/
def rest? (lead line : String) : Option String :=
  (lead.toList.isPrefixOf? line.toList).map String.ofList

theorem rest?_append (lead rest : String) : rest? lead (lead ++ rest) = some rest := by
  have hprefix : lead.toList.isPrefixOf? (lead ++ rest).toList = some rest.toList := by
    rw [List.isPrefixOf?_eq_some_iff_append_eq, String.toList_append]
  rw [rest?, hprefix, Option.map_some, String.ofList_toList]

/-- The names of the ids that are there. -/
abbrev Names := String → Option String

namespace Names

/-- Applies a change by its label, its id and its line of text, if it can be applied: what is
removed or renamed is there by its old name, and what is added is not there. -/
def after? (names : Names) (c : Change) : Option Names :=
  match names c.symbolId with
  | none =>
    if c.label = "symbol_added" then
      (rest? "Added symbol " c.summary).map fun new => Function.update names c.symbolId (some new)
    else none
  | some old =>
    if c.label = "symbol_removed" && c.summary = "Removed symbol " ++ old then
      some (Function.update names c.symbolId none)
    else if c.label = "symbol_changed" then
      (rest? ("Renamed symbol " ++ old ++ " -> ") c.summary).map fun new =>
        Function.update names c.symbolId (some new)
    else none

/-- Applies changes one after the other, if each can be applied where its turn comes. -/
def replay (names : Names) (cs : List Change) : Option Names := cs.foldlM after? names

/-- Changes are replayed one after the other. -/
theorem replay_append (names : Names) (cs cs' : List Change) :
    names.replay (cs ++ cs') = (names.replay cs).bind fun names' => names'.replay cs' :=
  List.foldlM_append

theorem after?_added {names : Names} {x : String} (h : names x = none) (new : String) :
    names.after? (.added x new) = some (Function.update names x (some new)) := by
  have hline : rest? "Added symbol " (Change.added x new).summary = some new := rest?_append _ _
  rw [after?, show names (Change.added x new).symbolId = none from h, hline]
  rfl

theorem after?_removed {names : Names} {x old : String} (h : names x = some old) :
    names.after? (.removed x old) = some (Function.update names x none) := by
  -- the line is read off by computation; as a rewrite rule it would be slow to set up
  have hline : (Change.removed x old).summary = "Removed symbol " ++ old := rfl
  rw [after?, show names (Change.removed x old).symbolId = some old from h]
  simp only [hline, Change.label, decide_true, Bool.and_true, if_true]
  rfl

theorem after?_renamed {names : Names} {x old : String} (h : names x = some old) (new : String) :
    names.after? (.renamed x old new) = some (Function.update names x (some new)) := by
  have hline : rest? ("Renamed symbol " ++ old ++ " -> ") (Change.renamed x old new).summary =
      some new := rest?_append _ _
  have hlabel : (Change.renamed x old new).label ≠ "symbol_removed" := by simp [Change.label]
  rw [after?, show names (Change.renamed x old new).symbolId = some old from h]
  simp only [hlabel, decide_false, Bool.false_and, hline]
  rfl

/-- The one change that an id needs can be applied. -/
theorem after?_changeOf {names : Names} {x : String} {new : Option String} {c : Change}
    (h : changeOf x (names x) new = [c]) : names.after? c = some (Function.update names x new) := by
  cases hold : names x with
  | none =>
    cases new with
    | none => simp [changeOf, hold] at h
    | some name =>
      obtain rfl : Change.added x name = c := by simpa [changeOf, hold] using h
      exact after?_added hold name
  | some old =>
    cases new with
    | none =>
      obtain rfl : Change.removed x old = c := by simpa [changeOf, hold] using h
      exact after?_removed hold
    | some name =>
      rw [hold, changeOf] at h
      split_ifs at h
      obtain rfl : Change.renamed x old name = c := by simpa using h
      exact after?_renamed hold name

theorem changeOf_self (x : String) (name : Option String) : changeOf x name name = [] := by
  cases name <;> simp [changeOf]

/-- Where nothing has changed the names are the same. -/
theorem eq_of_changeOf_eq_nil {x : String} {old new : Option String}
    (h : changeOf x old new = []) : old = new := by
  cases old <;> cases new <;> simp_all [changeOf]

theorem length_changeOf (x : String) (old new : Option String) :
    (changeOf x old new).length ≤ 1 := by
  cases old with
  | none => cases new <;> simp [changeOf]
  | some old =>
    cases new with
    | none => simp [changeOf]
    | some new =>
      rw [changeOf]
      split_ifs <;> simp

/-- **Changes that give each id what it needs lead to the goal**, in whatever order they come. -/
theorem replay_changes (names goal : Names) (cs : List Change)
    (h : ∀ x, cs.filter (·.symbolId = x) = changeOf x (names x) (goal x)) :
    names.replay cs = some goal := by
  induction cs generalizing names with
  | nil => exact congrArg some (funext fun x => eq_of_changeOf_eq_nil (h x).symm)
  | cons c cs ih =>
    have hx := h c.symbolId
    rw [List.filter_cons_of_pos (by simp)] at hx
    -- there is no second change of the same id
    have hnone : cs.filter (·.symbolId = c.symbolId) = [] := by
      have hlen := length_changeOf c.symbolId (names c.symbolId) (goal c.symbolId)
      rw [← hx, List.length_cons] at hlen
      exact List.length_eq_zero_iff.mp (by omega)
    rw [hnone] at hx
    have hafter := after?_changeOf hx.symm
    rw [replay, List.foldlM_cons, hafter]
    refine ih _ fun y => ?_
    by_cases hy : y = c.symbolId
    · rw [hy, hnone, Function.update_self, changeOf_self]
    · have hkeep := h y
      rw [List.filter_cons_of_neg (by simpa using Ne.symm hy)] at hkeep
      rw [Function.update_of_ne hy, hkeep]

end Names

/-- The changes of one symbol. -/
theorem Snapshot.filter_changesTo (b c : Snapshot) (x : String) :
    (b.changesTo c).filter (·.symbolId = x) = changeOf x (b.names.get? x) (c.names.get? x) :=
  filter_changesBetween b.nodup_keys_names c.nodup_keys_names x

/-- The changes from one snapshot to another lead from the names of the one to those of the
other. -/
theorem Snapshot.replay_changesTo (b c : Snapshot) :
    Names.replay b.names.get? (b.changesTo c) = some c.names.get? :=
  Names.replay_changes _ _ _ (b.filter_changesTo c)

/-! ### The file's own symbol -/

theorem Snapshot.Titled.file_mem_ids {f g : String} {c : Snapshot} (hc : c.Titled f)
    (h : fileSymbolId g ∈ c.ids) : g = f := by
  obtain ⟨x, hx, hid⟩ := List.mem_map.mp h
  have hidf : IsIdOf f (fileSymbolId g) := hid ▸ isIdOf_of_mem hc.identified hx
  exact IsIdOf.unique (Or.inl rfl) hidf

/-- Between two snapshots of a file nothing changes for the symbol of any file: that of this file
keeps its name, and others are not there. -/
theorem Snapshot.Titled.symbolId_ne_file {f : String} {b c : Snapshot} (hb : b.Titled f)
    (hc : c.Titled f) {change : Change} (h : change ∈ b.changesTo c) (g : String) :
    change.symbolId ≠ fileSymbolId g := by
  intro hg
  have hchange : change ∈ (b.changesTo c).filter (·.symbolId = fileSymbolId g) :=
    List.mem_filter.mpr ⟨h, by simpa using hg⟩
  rw [b.filter_changesTo c] at hchange
  have hsame : b.names.get? (fileSymbolId g) = c.names.get? (fileSymbolId g) := by
    by_cases hgf : g = f
    · rw [hgf, hb.title, hc.title]
    · have hout : ∀ {s : Snapshot}, s.Titled f → s.names.get? (fileSymbolId g) = none := fun hs =>
        (get?_names_eq_none_iff _ _).mpr fun hin => hgf (hs.file_mem_ids hin)
      rw [hout hb, hout hc]
  rw [hsame, Names.changeOf_self] at hchange
  exact List.not_mem_nil hchange

namespace Session

/-! ### Where the baseline comes from -/

/-- What can be done with a session. -/
inductive Deed where
  | operate (op : Op)
  | subscribe (who : Subscriber)
  | unsubscribe (who : Subscriber)
  | note (d : Diagnostic)
  deriving DecidableEq, Repr

/-- Does one thing with a session. -/
def act (s : Session) : Deed → Session
  | .operate op => (s.step op).1
  | .subscribe who => s.subscribe who
  | .unsubscribe who => s.unsubscribe who
  | .note d => s.note d

/-- A session over some documents that has not looked at them yet.  Once it has, and has said that
it is ready, it is a new one (`new_eq_acts`). -/
def begun (config : Config) (clocked : Bool) (documents : List Document) : Session :=
  blank config clocked (.holding documents) [.indexer, .graph, .history]

/-- Does one thing after the other. -/
def acts (s : Session) (deeds : List Deed) : Session := deeds.foldl act s

theorem new_eq_acts (config : Config) (clocked : Bool) (documents : List Document) :
    new config clocked (.holding documents) = (begun config clocked documents).acts
      [.operate .start, .note (.ready config.debounceMs config.languages)] := rfl

/-- The snapshot that became the baseline of a file when it had none, and how many events of the
file there were then. -/
structure Origin where
  snapshot : Snapshot
  recorded : Nat
  deriving DecidableEq, Repr

/-- The baseline of a file. -/
def baseline? (s : Session) (f : String) : Option Snapshot := (s.history.ofFile f).baseline

/-- The origin of the baseline of a file after a deed that leads from `s` to `t`, given the one
before it. -/
def originAfter (f : String) (s t : Session) (origin : Option Origin) : Option Origin :=
  match s.baseline? f, t.baseline? f with
  | _, none => none
  | none, some b => some ⟨b, (s.history.eventsOf f).length⟩
  | some _, some _ => origin

/-- The origin of the baseline of a file after some deeds, given the one before them. -/
def originOver (f : String) : List Deed → Session → Option Origin → Option Origin
  | [], _, origin => origin
  | deed :: deeds, s, origin =>
    originOver f deeds (s.act deed) (originAfter f s (s.act deed) origin)

/-- What the history of a file has to do with the origin of its baseline. -/
structure Traced (f : String) (origin : Option Origin) (x : FileHistory) : Prop where
  baseline : ∀ b, x.baseline = some b → b.Titled f ∧ ∃ o, origin = some o ∧
    o.recorded ≤ x.events.length ∧
    Names.replay o.snapshot.names.get? ((x.events.drop o.recorded).map Event.change) =
      some b.names.get?
  files : ∀ e ∈ x.events, ∀ g, e.change.symbolId ≠ fileSymbolId g

/-- **What is written about a file keeps its baseline in reach of the origin.** -/
theorem Traced.logs {f : String} {s t : Session} {origin : Option Origin}
    (h : Traced f origin (s.history.ofFile f))
    (hlogs : History.Logs f (s.history.ofFile f) (t.history.ofFile f)) :
    Traced f (originAfter f s t origin) (t.history.ofFile f) := by
  unfold originAfter baseline? History.eventsOf
  generalize s.history.ofFile f = x at h hlogs
  generalize t.history.ofFile f = y at hlogs
  cases hlogs with
  | same =>
    refine ⟨fun b hb => ?_, h.files⟩
    obtain ⟨hb', o, ho⟩ := h.baseline b hb
    refine ⟨hb', o, ?_, ho.2⟩
    rw [hb]
    exact ho.1
  | first hc hx =>
    refine ⟨fun b hb => ?_, h.files⟩
    obtain rfl := Option.some.inj hb
    refine ⟨hc, ⟨_, x.events.length⟩, by rw [hx], Nat.le_refl _, ?_⟩
    rw [List.drop_length]
    rfl
  | @compared old c hc hx n =>
    obtain ⟨hold, o, ho, hlen, hreplay⟩ := h.baseline old hx
    refine ⟨fun b hb => ?_, fun e he g => ?_⟩
    · obtain rfl := Option.some.inj hb
      refine ⟨hc, o, ?_, ?_, ?_⟩
      · rw [hx]
        exact ho
      · rw [List.length_append]
        omega
      · rw [List.drop_append_of_le_length hlen, List.map_append, Names.replay_append, hreplay,
          History.map_change_eventsFrom]
        exact Snapshot.replay_changesTo old c
    · rcases List.mem_append.mp he with hin | hin
      · exact h.files e hin g
      · have hchange : e.change ∈ old.changesTo c := by
          rw [← History.map_change_eventsFrom n f c.version (old.changesTo c)]
          exact List.mem_map_of_mem hin
        exact hold.symbolId_ne_file hc hchange g
  | closed => exact ⟨fun b hb => by simp at hb, h.files⟩

/-- All that can be done keeps a session tidy and advances its history. -/
theorem Tidy.act {s : Session} (hs : s.Tidy) (deed : Deed) :
    (s.act deed).Tidy ∧ s.history.Advances (s.act deed).history := by
  cases deed with
  | operate op => exact ⟨hs.step op, hs.advances_step op⟩
  | subscribe who => exact ⟨hs.subscribe who, History.advances_refl _⟩
  | unsubscribe who => exact ⟨hs.unsubscribe who, History.advances_refl _⟩
  | note d => exact ⟨hs.moves (.note s _), History.advances_refl _⟩

theorem Tidy.traced {f : String} {s : Session} (hs : s.Tidy) {origin : Option Origin}
    (h : Traced f origin (s.history.ofFile f)) (deeds : List Deed) :
    Traced f (originOver f deeds s origin) ((s.acts deeds).history.ofFile f) := by
  induction deeds generalizing s origin with
  | nil => exact h
  | cons deed deeds ih =>
    obtain ⟨htidy, hadvances⟩ := hs.act deed
    exact ih htidy (h.logs (hadvances.logs f))

/-- **The history replays to the present.**  After whatever deeds, with computations failing,
documents closed and opened again, parts disposed of and subscribers coming and going, a baseline
has an origin; the events recorded since then can be applied to the names of that snapshot one
after the other, and lead to the names of the baseline.  No event is about the symbol of a
file. -/
theorem begun_replays (config : Config) (clocked : Bool) (documents : List Document)
    (deeds : List Deed) (f : String) :
    let s := (begun config clocked documents).acts deeds
    (∀ b, s.baseline? f = some b →
      ∃ o, originOver f deeds (begun config clocked documents) none = some o ∧
        o.recorded ≤ (s.history.eventsOf f).length ∧
        Names.replay o.snapshot.names.get?
          (((s.history.eventsOf f).drop o.recorded).map Event.change) = some b.names.get?) ∧
      ∀ e ∈ s.history.eventsOf f, ∀ g, e.change.symbolId ≠ fileSymbolId g := by
  have hstart : Traced f none ((begun config clocked documents).history.ofFile f) :=
    ⟨fun b hb => by simp [begun, blank, History.empty, History.ofFile] at hb,
      fun e he => by simp [begun, blank, History.empty, History.ofFile] at he⟩
  have h := (tidy_blank config clocked documents).traced hstart deeds
  exact ⟨fun b hb => (h.baseline b hb).2, h.files⟩

/-- A document loses a function and is closed; opened again, it is changed twice, the first time
without the history taking notice, while a listener comes and the graph is disposed of. -/
def missedOnce : List Deed :=
  [.operate .start,
    .operate (.openDocument "a.ts" "function a() {}\nfunction b() {}".toList "typescript" 1),
    .operate (.update "a.ts" "function a() {}".toList), .operate (.close "a.ts"),
    .subscribe .listener,
    .operate (.openDocument "a.ts" "function a() {}\nfunction b() {}".toList "typescript" 1),
    .operate (.setFault (some .changes)), .operate (.update "a.ts" []),
    .operate (.setFault none), .operate (.dispose .graph),
    .operate (.update "a.ts" "function a() {}\nfunction c() {}".toList),
    .operate (.update "a.ts" "function a() {}\nfunction d() {}".toList)]

/-- Of the six events, the five recorded since the document was opened again lead to the names that
the baseline has now. -/
theorem missedOnce_replays :
    let s := (begun .default false []).acts missedOnce
    (originOver "a.ts" missedOnce (begun .default false []) none).map Origin.recorded = some 1 ∧
      (s.history.eventsOf "a.ts").map Event.change =
        [.removed "a.ts::b@2" "b", .removed "a.ts::a@1" "a", .removed "a.ts::b@2" "b",
          .added "a.ts::a@1#2" "a", .added "a.ts::c@2" "c", .renamed "a.ts::c@2" "c" "d"] ∧
      ∃ b o, s.baseline? "a.ts" = some b ∧
        originOver "a.ts" missedOnce (begun .default false []) none = some o ∧
        Names.replay o.snapshot.names.get?
          (((s.history.eventsOf "a.ts").drop o.recorded).map Event.change) =
            some b.names.get? := by
  have hreplays := (begun_replays .default false [] missedOnce "a.ts").1
  have hbaseline :
      (((begun .default false []).acts missedOnce).baseline? "a.ts").isSome = true := by
    decide +kernel
  obtain ⟨b, hb⟩ := Option.isSome_iff_exists.mp hbaseline
  obtain ⟨o, ho, -, hreplay⟩ := hreplays b hb
  exact ⟨by decide +kernel, by decide +kernel, b, o, hb, ho, hreplay⟩

end Session
end SymbolAtlas
