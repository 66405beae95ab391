import SymbolAtlas.Command.Files
import SymbolAtlas.Command.Run

/-!
# The program

Reads the files, the settings and the environment that a command needs, runs the command and
prints what it leaves behind.
-/

namespace SymbolAtlas

/-- The bytes of a file, if it can be read. -/
def readFile? (name : String) : IO (Option ByteArray) := do
  try return some (← IO.FS.readBinFile name)
  catch _ => return none

/-- The variables of these names that are set. -/
def readVariables (names : List String) : IO Variables := do
  let found ← names.filterMapM fun name => return (← IO.getEnv name).map (name, ·)
  return .ofList found

/-- The settings of the user, the project and the environment. -/
def readSettings : IO SettingSources := do
  let user ← match ← IO.getEnv "HOME" with
    | some home => readFile? (home ++ "/.livecode/config.yaml")
    | none => pure none
  let project ← readFile? ".livecode/config.yaml"
  let variableFile ← readFile? ".env"
  let text (bytes : Option ByteArray) : Text := (bytes.bind fileText?).getD []
  let named := [user, project].flatMap (fun b => references (text b)) ++
    VariableFile.references (text variableFile)
  let environment ← readVariables (named ++ Overrides.variableNames)
  return ⟨user, project, variableFile, environment⟩

/-- The width of the output. -/
def readWidth : IO Nat := do
  return Report.outputWidth (← IO.getEnv "COLUMNS")

/-- Runs the command that the arguments give; the result is its status. -/
def runProgram (args : List String) : IO UInt32 := do
  let texts ← args.mapM fun arg => do
    let path := Path.ofString arg
    return (path, (← readFile? path.text).bind fileText?)
  let request : Request := ⟨args, fun p => (texts.lookup p).join, ← readSettings, ← readWidth⟩
  match Command.run request with
  | .ok outcome =>
    for line in outcome.log do IO.eprintln line
    for line in outcome.output do IO.println line
    return outcome.status.toUInt32
  | .error e =>
    IO.eprintln e.message
    return 1

end SymbolAtlas

/-- The program. -/
def main (args : List String) : IO UInt32 := SymbolAtlas.runProgram args
