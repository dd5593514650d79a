import ModelSchema.Command.Arguments
import ModelSchema.Config.Load

namespace ModelSchema.Command

/-- The places where options for a source may stand. -/
def configPaths (source : Path) : Option Path → List Path
  | some path => [path]
  | none => [source, source.parent].flatMap fun directory =>
      [directory.child Config.fileName, directory.child Config.projectFileName]

def Task.paths : Task → List Path
  | .help | .version => []
  | .compile source output config _ => source :: configPaths source config ++ output.toList
  | .validate source data config => source :: data :: configPaths source config

/-- All places on the way to the files of a command line, so that they can be read before it
runs. -/
def visited (words : List String) : List Path :=
  match parse? words with
  | none => []
  | some (_, task) =>
    (task.paths.flatMap fun p => FileTree.visits p.start p.parts).eraseDups

end ModelSchema.Command
