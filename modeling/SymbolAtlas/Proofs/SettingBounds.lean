import SymbolAtlas.Settings.Load

/-!
# Which loaded configurations keep their bounds

Whatever the two settings files say, after merging and with all references expanded, what comes of
them is within the bounds of the settings (`Config.valid_ofFields`).  The variables of the
environment are not held to these bounds.  Two of the four settings can be given as variables, and
a configuration is out of bounds exactly if one of these two variables is
(`SettingSources.load_valid_iff`).  So the same number is refused in a file and taken from the
environment (`SettingSources.negative_variable_loaded`).
-/

namespace SymbolAtlas

/-- What a bound asks of an integer. -/
def Bound.Admits : Bound → Int → Prop
  | .atLeast low, n => low ≤ n
  | .above low, n => low < n

theorem Bound.broken?_eq_none_iff {b : Bound} {n : Int} : b.broken? n = none ↔ b.Admits n := by
  cases b with
  | atLeast low => simp [broken?, Admits]
  | above low => simp [broken?, Admits]

/-- The bounds that settings are declared with. -/
structure Config.Valid (c : Config) : Prop where
  debounceMs : 0 ≤ c.debounceMs
  maxDocumentChars : 0 < c.maxDocumentChars
  maxRetiredIds : 0 ≤ c.maxRetiredIds
  recentChangesLimit : 0 ≤ c.recentChangesLimit

/-- The variables keep the bounds of the settings that they stand for. -/
structure Overrides.InBounds (o : Overrides) : Prop where
  debounceMs : ∀ n ∈ o.debounceMs, 0 ≤ n
  maxDocumentChars : ∀ n ∈ o.maxDocumentChars, 0 < n

/-! ### Files -/

/-- A setting is its default if it is not there, and otherwise an integer that its bound admits. -/
theorem integerSetting_eq_ok_iff {group name : String} {fields : Fields} {bound : Bound}
    {default n : Int} :
    integerSetting group fields name bound default = .ok n ↔
      setting? fields name = none ∧ n = default ∨
        ∃ v, setting? fields name = some v ∧ integerOf v = .ok n ∧ bound.Admits n := by
  unfold integerSetting
  cases hv : setting? fields name with
  | none => simp [eq_comm]
  | some v =>
    cases hn : integerOf v with
    | error cause => simp [hn, Checked.fail]
    | ok m =>
      cases hb : bound.broken? m with
      | some cause =>
        have hbroken : ¬ bound.Admits m := by simp [← Bound.broken?_eq_none_iff, hb]
        simp only [hn, hb, Checked.fail, reduceCtorEq, false_and, Option.some.injEq, false_or,
          false_iff]
        rintro ⟨v, rfl, hm, hadmits⟩
        obtain rfl : m = n := Except.ok.inj (hn.symm.trans hm)
        exact hbroken hadmits
      | none =>
        have hadmits := Bound.broken?_eq_none_iff.mp hb
        simp only [hn, hb, Except.ok.injEq, reduceCtorEq, false_and, Option.some.injEq, false_or,
          exists_eq_left']
        exact ⟨fun h => ⟨h, h ▸ hadmits⟩, fun h => h.1⟩

/-- A bound that admits the default admits what is read. -/
theorem admits_of_integerSetting {group name : String} {fields : Fields} {bound : Bound}
    {default n : Int} (h : integerSetting group fields name bound default = .ok n)
    (hdefault : bound.Admits default) : bound.Admits n := by
  rcases integerSetting_eq_ok_iff.mp h with ⟨-, rfl⟩ | ⟨v, -, -, hn⟩
  · exact hdefault
  · exact hn

theorem Config.valid_default : Config.default.Valid := by
  constructor <;> decide

theorem indexerSettings_inBounds {fields : Fields} {debounce chars retired : Int}
    {languages : List String}
    (h : indexerSettings fields = .ok (debounce, chars, retired, languages)) :
    0 ≤ debounce ∧ 0 < chars ∧ 0 ≤ retired := by
  unfold indexerSettings at h
  split at h
  · cases h
  · dsimp only at h
    split at h
    · rename_i hdebounce hchars hretired _
      cases h
      exact ⟨admits_of_integerSetting hdebounce Config.valid_default.debounceMs,
        admits_of_integerSetting hchars Config.valid_default.maxDocumentChars,
        admits_of_integerSetting hretired Config.valid_default.maxRetiredIds⟩
    · cases h

theorem insightsSettings_inBounds {fields : Fields} {recent : Int}
    (h : insightsSettings fields = .ok recent) : 0 ≤ recent := by
  unfold insightsSettings at h
  split at h
  · cases h
  · exact admits_of_integerSetting h Config.valid_default.recentChangesLimit

/-- **What comes of files is valid.** -/
theorem Config.valid_ofFields {fields : Fields} {c : Config} (h : Config.ofFields fields = .ok c) :
    c.Valid := by
  unfold Config.ofFields at h
  split at h
  · dsimp only at h
    split at h
    · rename_i hindexer hinsights
      cases h
      obtain ⟨hdebounce, hchars, hretired⟩ := indexerSettings_inBounds hindexer
      exact ⟨hdebounce, hchars, hretired, insightsSettings_inBounds hinsights⟩
    · cases h
  · cases h

/-! ### The environment -/

/-- A valid configuration stays valid exactly if the variables keep the bounds. -/
theorem Config.Valid.override_iff {c : Config} (h : c.Valid) (o : Overrides) :
    (c.override o).Valid ↔ o.InBounds := by
  constructor
  · rintro ⟨hdebounce, hchars, -, -⟩
    constructor
    · intro n hn
      simpa [Config.override, Option.mem_def.mp hn] using hdebounce
    · intro n hn
      simpa [Config.override, Option.mem_def.mp hn] using hchars
  · rintro ⟨hdebounce, hchars⟩
    refine ⟨?_, ?_, h.maxRetiredIds, h.recentChangesLimit⟩
    · show 0 ≤ o.debounceMs.getD c.debounceMs
      cases hn : o.debounceMs with
      | none => exact h.debounceMs
      | some n => exact hdebounce n hn
    · show 0 < o.maxDocumentChars.getD c.maxDocumentChars
      cases hn : o.maxDocumentChars with
      | none => exact h.maxDocumentChars
      | some n => exact hchars n hn

namespace SettingSources

theorem load_eq_ok_iff {s : SettingSources} {c : Config} :
    s.load = .ok c ↔ ∃ fields base o, s.fields = .ok fields ∧ Config.ofFields fields = .ok base ∧
      s.overrides = .ok o ∧ c = base.override o := by
  unfold load
  cases hfields : s.fields with
  | error e => simp
  | ok fields =>
    cases hbase : Config.ofFields fields with
    | error e => simp [hbase]
    | ok base =>
      cases ho : s.overrides with
      | error e => simp [hbase]
      | ok o => simp [hbase, eq_comm]

/-- **A loaded configuration is valid exactly if the variables of the environment are within
bounds.**  What is below them, from the settings files or by default, always is valid, and so are
the settings that no variable stands for. -/
theorem load_valid_iff {s : SettingSources} {c : Config} (h : s.load = .ok c) :
    ∃ base o, (∃ fields, s.fields = .ok fields ∧ Config.ofFields fields = .ok base) ∧ base.Valid ∧
      s.overrides = .ok o ∧ c = base.override o ∧ (c.Valid ↔ o.InBounds) ∧
      0 ≤ c.maxRetiredIds ∧ 0 ≤ c.recentChangesLimit := by
  obtain ⟨fields, base, o, hfields, hbase, ho, rfl⟩ := load_eq_ok_iff.mp h
  have hvalid := Config.valid_ofFields hbase
  exact ⟨base, o, ⟨fields, hfields, hbase⟩, hvalid, ho, rfl, hvalid.override_iff o,
    hvalid.maxRetiredIds, hvalid.recentChangesLimit⟩

/-- Settings of a user, of a project that refers to a variable, and of a file of variables. -/
def layered : SettingSources where
  user := some "indexer:\n max_retired_ids: 0".toUTF8
  project := some "indexer:\n max_document_chars: $\x7bN\x7d".toUTF8
  variableFile := some "LIVECODE_DEBOUNCE_MS=75".toUTF8
  environment := ⟨[("N", "5")]⟩

theorem eq_ok_of_toOption {ε α : Type} {x : Except ε α} {a : α} (h : x.toOption = some a) :
    x = .ok a := by
  cases x with
  | error e => cases h
  | ok b => rw [Option.some.inj h]

/-- Every one of the sources has its part in a valid configuration. -/
theorem layered_valid :
    ∃ c, layered.load = .ok c ∧ c = ⟨75, 5, 0, Config.defaultLanguages, 5⟩ ∧ c.Valid ∧
      ∃ o, layered.overrides = .ok o ∧ o.debounceMs = some 75 ∧ o.maxDocumentChars = none ∧
        (c.Valid ↔ o.InBounds) := by
  have hload : layered.load = .ok ⟨75, 5, 0, Config.defaultLanguages, 5⟩ :=
    eq_ok_of_toOption (by decide +kernel)
  have hoverrides : layered.overrides = .ok ⟨some 75, none, "WARNING"⟩ :=
    eq_ok_of_toOption (by decide +kernel)
  obtain ⟨base, o, -, -, ho, -, hiff, -⟩ := load_valid_iff hload
  obtain rfl := Except.ok.inj (ho.symm.trans hoverrides)
  refine ⟨_, hload, rfl, hiff.mpr ⟨?_, ?_⟩, _, ho, rfl, rfl, hiff⟩
  · rintro n hn
    obtain rfl := Option.some.inj hn
    decide
  · rintro n hn
    cases hn

/-- A quiet time of less than nothing, as a variable. -/
def hasty : SettingSources := ⟨none, none, none, ⟨[("LIVECODE_DEBOUNCE_MS", "-5")]⟩⟩

/-- The same quiet time, in the file of a project. -/
def hastyProject : SettingSources :=
  ⟨none, some "indexer:\n debounce_ms: -5".toUTF8, none, ⟨[]⟩⟩

/-- The variable is loaded, and the file is refused. -/
theorem negative_variable_loaded :
    (∃ c, hasty.load = .ok c ∧ c.debounceMs = -5 ∧ ¬ c.Valid) ∧
      hastyProject.load = .error
        (.config (.invalid [⟨[.field "indexer", .field "debounce_ms"], .belowMinimum⟩])) := by
  constructor
  · have hload : hasty.load = .ok { Config.default with debounceMs := -5 } :=
      eq_ok_of_toOption (by decide +kernel)
    exact ⟨_, hload, rfl, fun h => absurd h.debounceMs (by decide)⟩
  · have he : (match hastyProject.load with | .ok _ => none | .error e => some e) = some (.config
        (.invalid [⟨[.field "indexer", .field "debounce_ms"], .belowMinimum⟩])) := by
      decide +kernel
    cases hload : hastyProject.load with
    | ok c => simp [hload] at he
    | error e =>
      rw [hload] at he
      rw [Option.some.inj he]

end SettingSources

end SymbolAtlas
