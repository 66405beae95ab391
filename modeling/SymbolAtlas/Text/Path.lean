/-!
# Paths

A path is a root and the components below it. Empty components and single dots are dropped when a
path is read, double dots are kept. A path that starts with exactly two slashes keeps both.
-/

namespace SymbolAtlas

/-- A path, taken apart at its slashes. -/
structure Path where
  root : String
  parts : List String
  deriving DecidableEq, Repr

namespace Path

/-- The root of a path by its number of leading slashes. -/
def rootOf (slashes : Nat) : String :=
  if slashes = 0 then "" else if slashes = 2 then "//" else "/"

/-- Reads a path. -/
def ofString (s : String) : Path :=
  { root := rootOf (s.toList.takeWhile (· == '/')).length
    parts := ((s.toList.splitOn '/').map String.ofList).filter fun p => p ≠ "" && p ≠ "." }

/-- The path as text; a single dot stands for the empty path. -/
def text (p : Path) : String :=
  if p.root = "" && p.parts = [] then "." else p.root ++ "/".intercalate p.parts

/-- The last component, or nothing. -/
def name (p : Path) : String := p.parts.getLastD ""

/-- The part of a name from its last dot on, unless that dot is its first or last character. -/
def suffixOf (name : String) : String :=
  let ending := name.toList.reverse.takeWhile (· != '.')
  if ending = [] || name.length ≤ ending.length + 1 then ""
  else "." ++ String.ofList ending.reverse

/-- The suffix of the last component. -/
def suffix (p : Path) : String := suffixOf p.name

end Path

/-- The language of each known suffix. -/
def languageSuffixes : List (String × String) :=
  [(".ts", "typescript"), (".tsx", "typescriptreact"), (".js", "javascript"),
    (".mjs", "javascript"), (".cjs", "javascript"), (".jsx", "javascriptreact")]

/-- The language of a file by its suffix, in whatever case it is written. No letter beyond ASCII
has a lower-case form among the letters of the known suffixes. -/
def Path.language (p : Path) : String :=
  (languageSuffixes.lookup p.suffix.toLower).getD "plaintext"

/-- What a file is called: the last component of its path, or the whole id if there is none. -/
def fileName (fileId : String) : String :=
  let name := (Path.ofString fileId).name
  if name = "" then fileId else name

end SymbolAtlas
