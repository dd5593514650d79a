import ModelSchema.Command.Paths
import ModelSchema.Command.Run

namespace ModelSchema.Program

def usage : String :=
  "Usage: [--version] [--verbose] compile SOURCE [-o OUTPUT] [--indent N] [-c CONFIG]\n" ++
  "       [--version] [--verbose] validate SOURCE DATA [-c CONFIG]"

/-- The entry at a path, if there is one. -/
def readEntry (p : Path) : IO (Option Entry) := do
  let here := (← IO.currentDir) / p.toString
  if ← here.isDir then return some .directory
  else if ← here.pathExists then return some (.file (← IO.FS.readBinFile here).toList)
  else return none

def snapshot (paths : List Path) : IO FileTree := do
  let entries ← paths.filterMapM fun p => do return (← readEntry p).map (p, ·)
  return ⟨entries⟩

/-- Writes a file that the command has written. -/
def carryOut (files : FileTree) (p : Path) : IO Unit := do
  match files.find p with
  | .ok (.file bytes) =>
    IO.FS.createDirAll ((← IO.currentDir) / p.parent.toString)
    IO.FS.writeBinFile ((← IO.currentDir) / p.toString) ⟨bytes.toArray⟩
  | _ => return ()

def details : Command.Ending → List Text
  | .invalid _ issues => issues.map fun i => i.text ++ " (".toList ++ i.keywordName.toList ++ [')']
  | .usage => [usage.toList]
  | .escaped _ => ["✗ The command broke off".toList]
  | _ => []

def outputOf : Command.Ending → String
  | .help => usage ++ "\n"
  | ending => ending.output

/-- Runs a command line on the files of the working directory. -/
def run (words : List String) : IO UInt32 := do
  let files ← snapshot (Command.visited words)
  let (verbose, result) := Command.run files words
  match result.ending with
  | .wrote p => carryOut result.files p
  | _ => pure ()
  IO.print (outputOf result.ending)
  for line in result.errorLines verbose ++ details result.ending do
    IO.eprintln (Text.str line)
  return result.ending.exitCode.toUInt32

end ModelSchema.Program

def main (words : List String) : IO UInt32 := ModelSchema.Program.run words
