import SymbolAtlas.Settings.Validate
import SymbolAtlas.Settings.VariableFile

/-!
# Settings from the environment

Three settings can be given as variables, in the environment or in a file of variables. The
environment counts more than the file. The names of these variables may be written in any case; of
several spellings the last counts.
-/

namespace SymbolAtlas

/-- What the names of the variables start with. -/
def variablePrefix : String := "livecode_"

/-- The value of a setting among variables. -/
def settingVariable? (env : Variables) (name : String) : Option String :=
  (env.toList.reverse.find? fun v => v.1.toLower = variablePrefix ++ name).map Prod.snd

/-- The value of a setting in a file of variables. -/
def settingInFile? (file : Entries String (Option String)) (name : String) : Option String :=
  (file.toList.reverse.find? fun v => v.1.toLower = variablePrefix ++ name).bind Prod.snd

/-- What the environment has to say about the settings. -/
structure Overrides where
  debounceMs : Option Int
  maxDocumentChars : Option Int
  logLevel : String
  deriving DecidableEq, Repr

/-- The names of the variables for settings, in capitals and in small letters. -/
def Overrides.variableNames : List String :=
  let names := ["debounce_ms", "max_document_chars", "log_level"].map (variablePrefix ++ ·)
  names ++ names.map String.toUpper

/-- An integer given as a variable. -/
def integerVariable (value : String → Option String) (name : String) : Checked (Option Int) :=
  match value name with
  | none => .ok none
  | some s =>
    match integerOfText s with
    | .ok n => .ok (some n)
    | .error e => .fail [.field name] e.cause

/-- What the environment and the file of variables say. -/
def Overrides.of (env : Variables) (file : VariableFile) : Checked Overrides :=
  let inFile := file.resolve env
  let value (name : String) := (settingVariable? env name).or (settingInFile? inFile name)
  let debounce := integerVariable value "debounce_ms"
  let chars := integerVariable value "max_document_chars"
  match debounce, chars with
  | .ok a, .ok b => .ok ⟨a, b, (value "log_level").getD "WARNING"⟩
  | _, _ => .error (debounce.problems ++ chars.problems)

/-- The configuration with the settings from the environment put in. They are taken as they are,
whatever the bounds of the settings. -/
def Config.override (c : Config) (o : Overrides) : Config :=
  { c with
    debounceMs := o.debounceMs.getD c.debounceMs
    maxDocumentChars := o.maxDocumentChars.getD c.maxDocumentChars }

end SymbolAtlas
