import SymbolAtlas.Settings.Environment
import SymbolAtlas.Settings.Yaml.Read
import SymbolAtlas.Text.Lines
import SymbolAtlas.Text.Utf8

/-!
# Loading the configuration

The settings of a project come over those of its user, key by key, and those of the environment
over both. References to variables are expanded after merging and before anything is checked.
-/

namespace SymbolAtlas

/-- Where settings come from. -/
structure SettingSources where
  /-- The settings file of the user. -/
  user : Option ByteArray
  /-- The settings file of the project. -/
  project : Option ByteArray
  /-- The file of variables. -/
  variableFile : Option ByteArray
  environment : Variables

/-- Why no configuration could be loaded. -/
inductive LoadError where
  | encoding (e : Utf8Error)
  | file (e : Yaml.ReadError)
  /-- A setting contains itself. -/
  | cyclic
  | config (e : ConfigError)
  deriving DecidableEq, Repr

/-- One step on the way to a value, as text. -/
def PathStep.text : PathStep → String
  | .field name => name
  | .item index => toString index

/-- The wording of an error. -/
def LoadError.message : LoadError → String
  | .encoding e => e.message
  | .cyclic | .file (.tree .tooDeep) => Yaml.ValueError.message .cyclic
  | .file (.value e) => e.message
  | .file (.source (.encoding e)) => e.message
  | .file (.tree (.scan (.longVersion digits))) => (RadixError.oversize digits).message 10 ""
  | .file (.tree (.scan (.unknownCharacter code))) => Yaml.unknownCharacterMessage code
  | .file _ => "a settings file cannot be read"
  | .config .nameNotText => "keywords must be strings"
  | .config (.invalid problems) =>
    "invalid settings: " ++ ", ".intercalate (problems.map fun p =>
      ".".intercalate (p.place.map PathStep.text))

/-- The settings in a file; a file that is not there has none. -/
def fileFields (bytes : Option ByteArray) : Except LoadError Fields :=
  match bytes with
  | none => .ok []
  | some b => (Yaml.readFields (Stream.decode b)).mapError .file

namespace SettingSources

/-- The merged and expanded settings of both files. -/
def fields (s : SettingSources) : Except LoadError Fields :=
  match fileFields s.user with
  | .error e => .error e
  | .ok user =>
    match fileFields s.project with
    | .error e => .error e
    | .ok project =>
      let merged := Value.mergeFields (Value.mergeFields [] user) project
      if Value.fieldsCyclic merged then .error .cyclic
      else .ok (Value.expandFields s.environment merged)

/-- The statements in the file of variables. -/
def statements (s : SettingSources) : Except LoadError VariableFile :=
  match s.variableFile with
  | none => .ok ⟨[], []⟩
  | some b =>
    match Utf8.decode b with
    | .error e => .error (.encoding e)
    | .ok t => .ok (.ofText t.unixBreaks)

/-- What the environment says. -/
def overrides (s : SettingSources) : Except LoadError Overrides :=
  match s.statements with
  | .error e => .error e
  | .ok file => (Overrides.of s.environment file).mapError fun ps => .config (.invalid ps)

/-- The configuration. Problems of the files come before those of the environment. -/
def load (s : SettingSources) : Except LoadError Config :=
  match s.fields with
  | .error e => .error e
  | .ok fields =>
    match Config.ofFields fields with
    | .error e => .error (.config e)
    | .ok config =>
      match s.overrides with
      | .error e => .error e
      | .ok o => .ok (config.override o)

end SettingSources

end SymbolAtlas
