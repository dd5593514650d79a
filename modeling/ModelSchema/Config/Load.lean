import ModelSchema.Config.OptionTable
import ModelSchema.Event
import ModelSchema.Files.Tree
import ModelSchema.Toml.Reader

namespace ModelSchema.Config

def fileName : String := "litespec.toml"

def projectFileName : String := "pyproject.toml"

def tableName : String := "litespec"

inductive Failure where
  | unreadable (path : Path)
  | invalid (path : Path) (faults : List (String × OptionFault))
  /-- The file fails in a way that the message about unreadable files does not cover. -/
  | file (f : FileTree.Fault)
  | tooManyDigits
  /-- Something that holds nothing is asked whether it holds the table. -/
  | notAContainer
  /-- Something other than a table is asked for an entry. -/
  | notATable
  /-- The options are not a table. -/
  | notOptions
  deriving DecidableEq, Repr

/-- What is said of a configuration that cannot be used. -/
def Failure.message? : Failure → Option Text
  | .unreadable path => some ("Cannot read configuration ".toList ++ path.toString.toList)
  | .invalid path _ => some ("Invalid configuration in ".toList ++ path.toString.toList)
  | _ => none

def readTable (files : FileTree) (path : Path) : Except Failure (Fields Value) :=
  match files.readText path with
  | .error .notUtf8 => .error (.file .notUtf8)
  | .error .zeroCharacter => .error (.file .zeroCharacter)
  | .error _ => .error (.unreadable path)
  | .ok text => match Toml.parse text with
    | .error .malformed => .error (.unreadable path)
    | .error .tooManyDigits => .error .tooManyDigits
    | .ok table => .ok table

/-- Whether one text occurs in another. -/
def occursIn (part : Text) : Text → Bool
  | [] => part.isEmpty
  | c :: t => Text.startsWith part (c :: t) || occursIn part t

def isText (s : String) : Value → Bool
  | .text t => s == t
  | _ => false

/-- Whether a value mentions the table: as a key, as an item, or within a text. -/
def mentions : Value → Except Failure Bool
  | .object fs => .ok (Fields.has tableName fs)
  | .array xs => .ok (xs.any (isText tableName))
  | .text s => .ok (occursIn tableName.toList s.toList)
  | _ => .error .notAContainer

/-- Whether a project has options. -/
def hasOptions (project : Fields Value) : Except Failure Bool :=
  match project.get? "tool" with
  | none => .ok false
  | some tool => mentions tool

def look (files : FileTree) (path : Path) : Except Failure (Option Entry) :=
  (files.look path).mapError .file

/-- The file with the options for a directory, or for the directory of a file. A file of their own
is preferred; the project file counts only if it has a table of them. -/
def find (files : FileTree) (start : Path) : Except Failure (Option Path) := do
  let directory := if (← look files start) = some .directory then start else start.parent
  let own := directory.child fileName
  let project := directory.child projectFileName
  if (← look files own).isSome then return some own
  else if (← look files project).isSome then
    let found ← hasOptions (← readTable files project)
    return if found then some project else none
  else return none

/-- The value of the options in a project. -/
def optionsIn (project : Fields Value) : Except Failure Value :=
  match project.get? "tool" with
  | none => .ok (.object [])
  | some (.object tool) => .ok ((Fields.get? tableName tool).getD (.object []))
  | some _ => .error .notATable

def readOptions (path : Path) (v : Value) : Except Failure Options :=
  match v with
  | .object table => (Options.ofTable table).mapError (.invalid path)
  | _ => .error .notOptions

/-- The options in a file, and the note that they were loaded. Without a file they are the
defaults. -/
def load (files : FileTree) : Option Path → Except Failure (Options × List Event)
  | none => .ok ({}, [])
  | some path => do
    let table ← readTable files path
    let v ← if path.name = projectFileName then optionsIn table else .ok (.object table)
    let o ← readOptions path v
    return (o, [.optionsLoaded path.toString o])

end ModelSchema.Config
