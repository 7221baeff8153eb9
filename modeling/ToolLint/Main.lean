import ToolLint.Check.Standard
import ToolLint.CommandLine
import ToolLint.Main.Machine
import ToolLint.Rules.Standard
import ToolLint.Settings

/-!
# The program

The linter as a program: it reads the files that the command line names and the
programs on the search path, inspects them on a machine that has just these
files, and prints what came of it.
-/

namespace ToolLint

def contentAt (path : String) : IO (Option (Option Text)) := do
  try
    let bytes ← IO.FS.readBinFile path
    return some (some bytes.toList)
  catch
    | .permissionDenied _ _ _ => return some none
    | _ => return none

/-- The machine that a run sees: the files at the given paths and the programs
with the given names. -/
def machineFor (paths names : List String) : IO Machine := do
  let directory ← IO.currentDir
  let searchPath := ((← IO.getEnv "PATH").getD "").splitOn ":"
  let programs := searchPath.flatMap fun d => names.map fun n => d ++ "/" ++ n
  let found ← (paths ++ programs).filterMapM fun p => do
    return (← contentAt p).map fun c => (utf8 p, c)
  let directories ← paths.filterM fun (p : String) => (directory / p).isDir
  let files := Files.ofPaths (utf8 directory.toString)
    (found.map fun (p, c) => (p, c.getD [])) (directories.map utf8)
  let closed := (found.filter fun e => e.2.isNone).map Prod.fst
  return { files := files.closing closed
           searchPath := searchPath.map utf8
           grep := utf8 (searchPath.headD "") ++ utf8 "/grep" }

def writeTo (stream : IO.FS.Stream) (t : Text) : IO Unit := do
  stream.write ⟨t.toArray⟩
  stream.flush

end ToolLint

open ToolLint in
/-- Inspect the tools that the command line names. -/
def main (args : List String) : IO UInt32 := do
  let m ← machineFor args ["perldoc", "podchecker"]
  let debug :=
    (Settings.ofVariable ((← IO.getEnv Settings.variableName).map utf8)).debug
  let r :=
    CommandLine.run (Check.standard .standard m.programs) m.files (args.map utf8)
  writeTo (← IO.getStdout) (Output.stdout r.output)
  writeTo (← IO.getStderr) (Output.stderrWithLog debug r.output ++ r.errorLine)
  return r.exit.toUInt32
