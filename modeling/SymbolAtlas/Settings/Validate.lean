import SymbolAtlas.Number.Numeral
import SymbolAtlas.Settings.Config
import SymbolAtlas.Settings.Value

/-!
# From values to settings

A tree of values becomes a configuration if every setting in it is of the right kind and within
its bounds. Settings that are not there take their defaults, and what is not a setting is passed
over. All problems are reported, in the order in which the settings are declared.

An integer may be given as an integer, as a truth value, as a binary number without a fraction, or
as a text that is a numeral. A text may be given as the bytes that encode it, and a list as a set.
-/

namespace SymbolAtlas

/-- One step on the way to a value: a key of a mapping, or the index of an item. -/
inductive PathStep where
  | field (name : String)
  | item (index : Nat)
  deriving DecidableEq, Repr

/-- What is wrong with a value. -/
inductive Cause where
  | notMapping
  | notInteger
  | unreadableInteger
  | fraction
  | oversizeInteger
  | notFinite
  /-- The value is below the least one allowed. -/
  | belowMinimum
  /-- The value is not above the bound. -/
  | notAboveMinimum
  | notList
  | notText
  /-- A text is given as bytes that encode none. -/
  | undecodable
  deriving DecidableEq, Repr

/-- A value that cannot be used, and why. -/
structure Problem where
  place : List PathStep
  cause : Cause
  deriving DecidableEq, Repr

/-- What checking a value yields: what it stands for, or all that is wrong with it. -/
abbrev Checked (α : Type) := Except (List Problem) α

namespace Checked

/-- The problems found. -/
def problems {α : Type} : Checked α → List Problem
  | .ok _ => []
  | .error ps => ps

/-- One problem. -/
def fail {α : Type} (place : List PathStep) (cause : Cause) : Checked α := .error [⟨place, cause⟩]

end Checked

/-! ### Integers -/

/-- The integer that a binary number stands for, if it has no fraction and fits into 64 bits. -/
def integerOfBinary (b : Binary) : Except Cause Int :=
  match b with
  | .infinite _ | .undefined => .error .notFinite
  | .finite .. =>
    match b.toInt? with
    | none => .error .fraction
    | some n => if n.natAbs < Nat.pow 2 63 then .ok n else .error .oversizeInteger

/-- Why a text is no integer, as the cause of a problem. -/
def NumeralError.cause : NumeralError → Cause
  | .unreadable => .unreadableInteger
  | .oversize => .oversizeInteger

/-- The integer that a value stands for. -/
def integerOf (v : Value) : Except Cause Int :=
  match v with
  | .scalar (.int n) => .ok n
  | .scalar (.bool b) => .ok (if b then 1 else 0)
  | .scalar (.binary b) => integerOfBinary b
  | .scalar (.text s) => (integerOfText s).mapError NumeralError.cause
  | .scalar (.bytes b) =>
    match String.fromUTF8? ⟨b.toArray⟩ with
    | some s => (integerOfText s).mapError NumeralError.cause
    | none => .error .unreadableInteger
  | _ => .error .notInteger

/-! ### Settings -/

/-- What an integer setting must keep to. -/
inductive Bound where
  | atLeast (n : Int)
  | above (n : Int)
  deriving DecidableEq, Repr

/-- The way in which an integer breaks a bound. -/
def Bound.broken? (b : Bound) (n : Int) : Option Cause :=
  match b with
  | .atLeast low => if n < low then some .belowMinimum else none
  | .above low => if n ≤ low then some .notAboveMinimum else none

/-- The value of a setting. -/
def setting? (fields : Fields) (name : String) : Option Value := fields.lookup (.text name)

/-- An integer setting of a section. -/
def integerSetting (group : String) (fields : Fields) (name : String) (bound : Bound)
    (default : Int) : Checked Int :=
  let place := [PathStep.field group, .field name]
  match setting? fields name with
  | none => .ok default
  | some v =>
    match integerOf v with
    | .error cause => .fail place cause
    | .ok n =>
      match bound.broken? n with
      | some cause => .fail place cause
      | none => .ok n

/-- The text that a value stands for. -/
def textOf (v : Value) : Except Cause String :=
  match v with
  | .scalar (.text s) => .ok s
  | .scalar (.bytes b) =>
    match String.fromUTF8? ⟨b.toArray⟩ with
    | some s => .ok s
    | none => .error .undecodable
  | _ => .error .notText

/-- The texts of a list, and the problems of its other items, from item number `index` on. -/
def textItems (place : List PathStep) (index : Nat) : List Value → List String × List Problem
  | [] => ([], [])
  | v :: rest =>
    let (texts, problems) := textItems place (index + 1) rest
    match textOf v with
    | .ok s => (s :: texts, problems)
    | .error cause => (texts, ⟨place ++ [.item index], cause⟩ :: problems)

/-- The items of a value that counts as a list. -/
def itemsOf? : Value → Option (List Value)
  | .list items => some items
  | .set keys => some (keys.map .scalar)
  | .pairs entries => some (entries.map fun (k, v) => .list [k, v])
  | _ => none

/-- A setting of a section that is a list of texts. -/
def textsSetting (group : String) (fields : Fields) (name : String) (default : List String) :
    Checked (List String) :=
  let place := [PathStep.field group, .field name]
  match setting? fields name with
  | none => .ok default
  | some v =>
    match itemsOf? v with
    | none => .fail place .notList
    | some items =>
      match textItems place 0 items with
      | (texts, []) => .ok texts
      | (_, problems) => .error problems

/-- The settings of a section; one that is not there has none. -/
def sectionFields (fields : Fields) (group : String) : Checked Fields :=
  match setting? fields group with
  | none => .ok []
  | some (.map inner) => .ok inner
  | some _ => .fail [.field group] .notMapping

/-- The four settings of the indexer: quiet time, longest document, retired ids, languages. -/
def indexerSettings (fields : Fields) : Checked (Int × Int × Int × List String) :=
  match sectionFields fields "indexer" with
  | .error ps => .error ps
  | .ok inner =>
    let d := Config.default
    let debounce := integerSetting "indexer" inner "debounce_ms" (.atLeast 0) d.debounceMs
    let chars := integerSetting "indexer" inner "max_document_chars" (.above 0) d.maxDocumentChars
    let retired := integerSetting "indexer" inner "max_retired_ids" (.atLeast 0) d.maxRetiredIds
    let languages := textsSetting "indexer" inner "supported_languages" d.languages
    match debounce, chars, retired, languages with
    | .ok a, .ok b, .ok c, .ok l => .ok (a, b, c, l)
    | _, _, _, _ =>
      .error (debounce.problems ++ chars.problems ++ retired.problems ++ languages.problems)

/-- The number of recent changes to show. -/
def insightsSettings (fields : Fields) : Checked Int :=
  match sectionFields fields "insights" with
  | .error ps => .error ps
  | .ok inner =>
    integerSetting "insights" inner "recent_changes_limit" (.atLeast 0)
      Config.default.recentChangesLimit

/-- Why a tree of values is no configuration. -/
inductive ConfigError where
  /-- A section has a name that is not a text. -/
  | nameNotText
  | invalid (problems : List Problem)
  deriving DecidableEq, Repr

/-- Whether a key is a text. -/
def Scalar.isText : Scalar → Bool
  | .text _ => true
  | _ => false

/-- The configuration that a tree of values stands for. -/
def Config.ofFields (fields : Fields) : Except ConfigError Config :=
  if fields.all fun f => f.1.isText then
    let indexer := indexerSettings fields
    let insights := insightsSettings fields
    match indexer, insights with
    | .ok (debounce, chars, retired, languages), .ok recent =>
      .ok ⟨debounce, chars, retired, languages, recent⟩
    | _, _ => .error (.invalid (indexer.problems ++ insights.problems))
  else .error .nameNotText

end SymbolAtlas
