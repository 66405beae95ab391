import SymbolAtlas.Session.State
import SymbolAtlas.Text.Quoted

/-!
# Log levels and log lines

Diagnostics are logged when the level is low enough. A level is given by name, in any case; a
name that is none counts as the default.
-/

namespace SymbolAtlas

/-- How much is logged: nothing below a level is. -/
abbrev LogLevel := Nat

namespace LogLevel

/-- The level of diagnostics. -/
def debug : LogLevel := 10

/-- The level unless set otherwise. -/
def standard : LogLevel := 30

/-- The levels by name. -/
def named : List (String × LogLevel) :=
  [("NOTSET", 0), ("DEBUG", debug), ("INFO", 20), ("WARNING", standard), ("WARN", standard),
    ("ERROR", 40), ("CRITICAL", 50), ("FATAL", 50)]

/-- The layout of log lines. -/
def layout : String := "%(levelname)s:%(name)s:%(message)s"

/-- The ways in which layouts can be written, each with its class and an example. -/
def layouts : List (String × String × String) :=
  [ ("%", "PercentStyle", layout),
    ("\x7b", "StrFormatStyle", "\x7blevelname\x7d:\x7bname\x7d:\x7bmessage\x7d"),
    ("$", "StringTemplateStyle", "$\x7blevelname\x7d:$\x7bname\x7d:$\x7bmessage\x7d") ]

/-- The layouts as they are shown. -/
def layoutsText : String :=
  let entry := fun ((mark, name, layout) : String × String × String) =>
    quotedText mark ++ ": (<class 'logging." ++ name ++ "'>, " ++ quotedText layout ++ ")"
  "\x7b" ++ ", ".intercalate (layouts.map entry) ++ "\x7d"

/-- What a name stands for that is not the name of a level. -/
inductive Misnomer where
  | layout
  | layouts
  deriving DecidableEq, Repr

/-- The names that stand for something else than a level. -/
def misnomers : List (String × Misnomer) := [("BASIC_FORMAT", .layout), ("_STYLES", .layouts)]

/-- The wording of the error about such a name. -/
def Misnomer.message : Misnomer → String
  | .layout => "Unknown level: " ++ quotedText LogLevel.layout
  | .layouts => "Level not an integer or a valid string: " ++ layoutsText

/-- The capitals of a letter, as far as they occur in a name. The dotless i and the long s have
the same capitals as the common letters, and the ligatures of s and t have two. -/
def capitals (c : Char) : List Char :=
  if c = 'ı' then ['I']
  else if c = 'ſ' then ['S']
  else if c = '\ufb05' || c = '\ufb06' then ['S', 'T']
  else [c.toUpper]

/-- The level of a name, unless the name stands for something else. -/
def ofName (name : String) : Except Misnomer LogLevel :=
  let name := String.ofList (name.toList.flatMap capitals)
  match misnomers.lookup name with
  | some m => .error m
  | none => .ok ((named.lookup name).getD standard)

end LogLevel

namespace Diagnostic

/-- The part of the program that a diagnostic comes from. -/
def origin : Diagnostic → String
  | .ready _ _ => "livecode.core.session"
  | .unknownUpdate _ | .unknownEdit _ => "livecode.buffer.text_buffer"
  | _ => "livecode.index.structure_indexer"

/-- The wording of a diagnostic. -/
def message : Diagnostic → String
  | .ready ms languages =>
    "Session ready (debounce=" ++ toString ms ++ "ms, languages=" ++
      ",".intercalate languages ++ ")"
  | .current f v => "Snapshot of " ++ f ++ " already at version " ++ toString v
  | .dropped f => "Dropping " ++ f ++ ": no longer an indexed document"
  | .tooLarge f n => "Skipping large document " ++ f ++ " (" ++ toString n ++ " chars)"
  | .stale f v newest =>
    "Ignoring stale version " ++ toString v ++ " of " ++ f ++ " (have " ++ toString newest ++ ")"
  | .unknownUpdate f => "set_content on unknown document " ++ f
  | .unknownEdit f => "apply_edit on unknown document " ++ f

/-- A diagnostic as a log line. -/
def logLine (d : Diagnostic) : String := "DEBUG " ++ d.origin ++ ": " ++ d.message

end Diagnostic

/-- The wording of the warning about a statement in the file of variables that cannot be read. -/
def unreadableStatement (line : Nat) : String :=
  "python-dotenv could not parse statement starting at line " ++ toString line

/-- The warnings about the statements of a file of variables that begin at these lines. Before a
level is set they are lines without an origin. -/
def statementWarnings (level : Option LogLevel) (lines : List Nat) : List String :=
  match level with
  | none => lines.map unreadableStatement
  | some l =>
    if l ≤ LogLevel.standard then
      lines.map fun n => "WARNING dotenv.main: " ++ unreadableStatement n
    else []

/-- The log lines of diagnostics at a level. -/
def logLines (level : LogLevel) (ds : List Diagnostic) : List String :=
  if level ≤ LogLevel.debug then ds.map Diagnostic.logLine else []

end SymbolAtlas
