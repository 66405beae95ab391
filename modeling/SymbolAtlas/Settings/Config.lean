import SymbolAtlas.Number.Binary

/-!
# The configuration

What can be set: how long a file has to be quiet, which documents are indexed, how many retired
ids are remembered, and how many events count as recent.
-/

namespace SymbolAtlas

/-- All settings. -/
structure Config where
  /-- How many milliseconds a file has to be quiet before it is indexed. -/
  debounceMs : Int
  /-- Longer documents are not indexed. -/
  maxDocumentChars : Int
  /-- How many retired ids are remembered for a file. -/
  maxRetiredIds : Int
  /-- Documents in other languages are not indexed. -/
  languages : List String
  /-- How many of a file's last events count as recent. -/
  recentChangesLimit : Int
  deriving DecidableEq, Repr

namespace Config

/-- The languages that are indexed unless set otherwise. -/
def defaultLanguages : List String :=
  ["typescript", "typescriptreact", "javascript", "javascriptreact"]

/-- The settings that hold unless set otherwise. -/
def default : Config := ⟨250, 200000, 4096, defaultLanguages, 5⟩

/-- Whether documents in a language are indexed. -/
def isSupported (c : Config) (language : String) : Bool := c.languages.contains language

/-- The quiet time in milliseconds; a negative setting counts as none. -/
def delay (c : Config) : Int := max c.debounceMs 0

/-- Whether a clock can be set to the quiet time: clocks count in binary numbers, and the time has
to be one that is finite. -/
def delayFits (c : Config) : Bool :=
  match Binary.ofInt c.debounceMs with
  | .finite .. => true
  | _ => false

/-- The wording of the error about a quiet time that does not fit. -/
def delayMessage : String := "int too large to convert to float"

end Config

end SymbolAtlas
