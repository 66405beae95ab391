import SymbolAtlas.Settings.Yaml.Source

/-!
# Tokens of settings files

Settings files are written in YAML: block mappings and block lists by indentation, flow mappings
and lists in brackets, plain, quoted and block scalars, comments, anchors and aliases, tags,
directives and document markers.
-/

namespace SymbolAtlas.Yaml

/-- A piece of a settings file. -/
inductive Token where
  | documentStart
  | documentEnd
  | streamEnd
  | blockSequence
  | blockMapping
  | blockEnd
  | flowSequence
  | flowSequenceEnd
  | flowMapping
  | flowMappingEnd
  | blockEntry
  | flowEntry
  | key
  | value
  | scalar (text : String) (plain : Bool)
  | anchor (name : String)
  | aliasOf (name : String)
  /-- A tag; a verbatim one has no handle. -/
  | tag (handle : Option String) (suffix : String)
  | version (major : Nat)
  | tagPrefix (handle start : String)
  /-- A directive that means nothing. -/
  | reserved
  deriving DecidableEq, Repr

/-- Why a file cannot be cut into tokens. -/
inductive ScanError where
  /-- The characters that come next cannot be read. -/
  | source (e : SourceError)
  /-- A line that has to be a key has no colon. -/
  | keyWithoutValue
  | valueNotAllowed
  | keyNotAllowed
  | entryNotAllowed
  | unclosedQuote
  | separatorInQuote
  | unknownEscape
  /-- An escape sequence gives the number of no character. -/
  | unknownCharacter (code : Nat)
  | badDirective
  /-- The version in a directive has too many digits. -/
  | longVersion (digits : Nat)
  | badAnchor
  | badTag
  | badBlockHeader
  /-- A character that cannot begin a token. -/
  | strayCharacter (c : Char)
  deriving DecidableEq, Repr

/-- The wording of the error about a number that is that of no character: very large ones are not
even looked at. -/
def unknownCharacterMessage (code : Nat) : String :=
  if code < Nat.pow 2 31 then "chr() arg not in range(0x110000)"
  else "Python int too large to convert to C int"

end SymbolAtlas.Yaml
