import SymbolAtlas.Command.Log
import SymbolAtlas.Command.Report
import SymbolAtlas.Session.Step
import SymbolAtlas.Settings.Load
import SymbolAtlas.Text.Path

/-!
# Commands

`analyze` prints the symbols and calls of files, `diff` the changes between two files taken as
versions of one, and `impact` what depends on a symbol. A command is a function of its arguments,
the files that can be read, the settings and the width of the output.
-/

namespace SymbolAtlas

/-- What a command is given. -/
structure Request where
  arguments : List String
  /-- The text of each file that can be read. -/
  read? : Path → Option Text
  settings : SettingSources
  width : Nat

/-- What a command leaves behind: its status, its output and its log, both as lines, and the
level of the log. -/
structure Outcome where
  status : Nat
  output : List String
  log : List String
  level : LogLevel
  deriving DecidableEq, Repr

/-- Why a command breaks off. -/
inductive CommandError where
  | settings (e : LoadError)
  | markup (e : Report.MarkupError)
  /-- The level of the log is given by a name that stands for something else. -/
  | level (m : LogLevel.Misnomer)
  /-- No clock can be set to the quiet time. -/
  | delay
  /-- The path of a file has a character that no path may have. -/
  | nullInPath
  deriving DecidableEq, Repr

/-- The wording of an error. -/
def CommandError.message : CommandError → String
  | .settings e => e.message
  | .markup e => e.message
  | .level m => m.message
  | .delay => Config.delayMessage
  | .nullInPath => "embedded null byte"

namespace Command

/-- How to use the program. -/
def help : List String :=
  [ "Usage: livecode analyze <file>... [--verbose]",
    "       livecode diff <old-file> <new-file> [--verbose]",
    "       livecode impact <file> <symbol-name> [--verbose]",
    "",
    "Commands:",
    "  analyze    Print symbols, call edges and top-level symbols of each file",
    "  diff       Treat <new-file> as the next version of <old-file> and print",
    "             the symbol-level history events between them",
    "  impact     Explain a symbol and list what could break if it were deleted",
    "",
    "Options:",
    "  --verbose, -v   Show metrics and summaries, and log at DEBUG level",
    "  --help, -h      Show this help message and exit",
    "" ]

/-- What a part of a command comes to: status, output and the session it used, if any. -/
structure Done where
  status : Nat
  output : List String
  session : Option Session

/-- A part of a command that used no session. -/
def Done.plain (status : Nat) (output : List String) : Done := ⟨status, output, none⟩

/-- A session with the settings of a request. Files are indexed as soon as they are opened. -/
def session (r : Request) : Except CommandError Session :=
  match r.settings.load with
  | .error e => .error (.settings e)
  | .ok config => if config.delayFits then .ok (.new config false (.new false)) else .error .delay

/-- The text of a file, if it can be read. -/
def fileText (r : Request) (path : Path) : Except CommandError (Option Text) :=
  if path.text.toList.contains '\x00' then .error .nullInPath else .ok (r.read? path)

/-- Opens a file in a session. -/
def openFile (s : Session) (path : Path) (content : Text) : Session :=
  (s.openDocument path.text content path.language 1).1

/-- Opens the files that can be read; the others are reported, and the status tells whether there
were any. -/
def openFiles (r : Request) (s : Session) :
    List String → Except CommandError (Session × List String × Nat)
  | [] => .ok (s, [], 0)
  | arg :: rest =>
    let path := Path.ofString arg
    match fileText r path with
    | .error e => .error e
    | .ok none =>
      (openFiles r s rest).map fun (s, errors, _) =>
        (s, Report.errorLines r.width ("Cannot read " ++ arg) ++ errors, 1)
    | .ok (some content) => openFiles r (openFile s path content) rest

/-- What is said about a file that could not be indexed. -/
def notIndexed (r : Request) (name : String) : List String :=
  Report.warningLines r.width (name ++ ": not indexed (unsupported language or too large)")

/-- The lines about one of the files given. -/
def analyzedLines (r : Request) (verbose : Bool) (s : Session) (arg : String) :
    Except Report.MarkupError (List String) :=
  let fileId := (Path.ofString arg).text
  match s.snapshot? fileId with
  | some snapshot => Report.fileLines r.width verbose s snapshot
  | none => .ok (if (s.buffer.get? fileId).isSome then notIndexed r arg else [])

/-- Prints the symbols and calls of files. -/
def analyze (r : Request) (verbose : Bool) (args : List String) : Except CommandError Done :=
  if args = [] then .ok (.plain 1 ["Usage: livecode analyze <file>... [--verbose]"])
  else
    match session r with
    | .error e => .error e
    | .ok s =>
      match openFiles r s args with
      | .error e => .error e
      | .ok (s, errors, status) =>
        match args.mapM (analyzedLines r verbose s) with
        | .error e => .error (.markup e)
        | .ok lines => .ok ⟨status, errors ++ lines.flatten, some s⟩

/-- Prints the changes from one file to another. -/
def diff (r : Request) (args : List String) : Except CommandError Done :=
  match args with
  | [old, new] =>
    let oldPath := Path.ofString old
    let newPath := Path.ofString new
    match fileText r oldPath, fileText r newPath with
    | .error e, _ | _, .error e => .error e
    | .ok none, _ => .ok (.plain 1 (Report.errorLines r.width ("Cannot read " ++ oldPath.text)))
    | _, .ok none => .ok (.plain 1 (Report.errorLines r.width ("Cannot read " ++ newPath.text)))
    | .ok (some before), .ok (some after) =>
      match session r with
      | .error e => .error e
      | .ok s =>
        let fileId := oldPath.text
        let s := ((openFile s oldPath before).update fileId after).1
        match s.snapshot? fileId with
        | none => .ok ⟨1, notIndexed r fileId, some s⟩
        | some _ =>
          .ok ⟨0, Report.header r.width (oldPath.name ++ " -> " ++ newPath.name) ++
            Report.historyLines r.width (s.history.eventsOf fileId) ++
            Report.recentLines r.width (s.recentChanges fileId), some s⟩
  | _ => .ok (.plain 1 ["Usage: livecode diff <old-file> <new-file>"])

/-- The first declaration of a file that has a name. -/
def declarationNamed (s : Session) (fileId name : String) : Option Symbol :=
  (s.snapshot? fileId).bind fun snapshot => snapshot.declared.find? (·.name = name)

/-- Explains a symbol and prints what depends on it. -/
def impact (r : Request) (args : List String) : Except CommandError Done :=
  match args with
  | [file, name] =>
    let path := Path.ofString file
    match fileText r path with
    | .error e => .error e
    | .ok none => .ok (.plain 1 (Report.errorLines r.width ("Cannot read " ++ file)))
    | .ok (some content) =>
      match session r with
      | .error e => .error e
      | .ok s =>
        let fileId := path.text
        let s := openFile s path content
        match (declarationNamed s fileId name).bind fun x => s.explain fileId x.id with
        | none =>
          let message := "No symbol named " ++ quotedText name ++ " in " ++ fileId
          .ok ⟨1, Report.errorLines r.width message, some s⟩
        | some e =>
          match Report.explanationLines r.width e (s.graph.impact e.symbolId) with
          | .error e => .error (.markup e)
          | .ok lines =>
            let others := s.duplicates fileId e.symbolId
            .ok ⟨0, lines ++ Report.duplicateLines r.width name others, some s⟩
  | _ => .ok (.plain 1 ["Usage: livecode impact <file> <symbol-name>"])

/-- Whether an argument asks for more output. -/
def isVerboseFlag (arg : String) : Bool := arg = "--verbose" || arg = "-v"

/-- Whether an argument asks for help. -/
def isHelpFlag (arg : String) : Bool := arg = "--help" || arg = "-h"

/-- The level of the log. Without a flag for more output the environment decides. -/
def logLevel (r : Request) (verbose : Bool) : Except CommandError LogLevel :=
  if verbose then .ok LogLevel.debug
  else
    match r.settings.overrides with
    | .error e => .error (.settings e)
    | .ok o => (LogLevel.ofName o.logLevel).mapError .level

/-- The lines of the file of variables where statements begin that cannot be read. -/
def unreadableLines (r : Request) : List Nat :=
  match r.settings.statements with
  | .ok file => file.unreadable
  | .error _ => []

/-- The log of a command. The file of variables is read once for the level of the log, if the
environment decides that, and once for the settings of a session. -/
def log (r : Request) (verbose : Bool) (level : LogLevel) (session : Option Session) :
    List String :=
  let lines := unreadableLines r
  (if verbose then [] else statementWarnings none lines) ++
    match session with
    | none => []
    | some s => statementWarnings (some level) lines ++ logLines level s.diagnostics

/-- Carries out the command that the first argument names. -/
def dispatch (r : Request) (verbose : Bool) (command : String) (args : List String) :
    Except CommandError Done :=
  if command = "analyze" then analyze r verbose args
  else if command = "diff" then diff r args
  else if command = "impact" then impact r args
  else .ok (.plain 1 ["Unknown command: " ++ command, "Run 'livecode --help' for usage."])

/-- Runs the program. -/
def run (r : Request) : Except CommandError Outcome :=
  match r.arguments with
  | [] => .ok ⟨0, help, [], LogLevel.standard⟩
  | command :: args =>
    if r.arguments.any isHelpFlag then .ok ⟨0, help, [], LogLevel.standard⟩
    else
      let verbose := r.arguments.any isVerboseFlag
      match logLevel r verbose with
      | .error e => .error e
      | .ok level =>
        match dispatch r verbose command (args.filter fun a => !isVerboseFlag a) with
        | .error e => .error e
        | .ok done => .ok ⟨done.status, done.output, log r verbose level done.session, level⟩

end Command

end SymbolAtlas
