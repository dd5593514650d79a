import ModelSchema.Command.Arguments
import ModelSchema.Compiler
import ModelSchema.Config.Load
import ModelSchema.Json.Reader
import ModelSchema.Json.Writer
import ModelSchema.Schema.Validation
import ModelSchema.Version

namespace ModelSchema.Command

/-- Why a schema cannot be indented as asked. -/
inductive IndentFault where
  /-- The width is beyond what can be counted. -/
  | tooWide
  /-- There is no room for a text of this width. -/
  | noRoom
  deriving DecidableEq, Repr

/-- What breaks off a command without a report of its own. -/
inductive Escape where
  | compiling (b : Breakdown)
  | configuring (f : Config.Failure)
  | file (f : FileTree.Fault)
  | indenting (f : IndentFault)
  | json (f : Json.Fault)
  | checking (f : SchemaFault)

/-- How a command ends. -/
inductive Ending where
  | usage
  | help
  | version
  | printed (text : String)
  | wrote (path : Path)
  | valid (data : Path)
  | invalid (data : Path) (issues : List Issue)
  | parseError (text : Text)
  | error (text : Text)
  | cannotRead (source : Path)
  | cannotLoad (data : Path)
  | escaped (e : Escape)

namespace Ending

def exitCode : Ending → Nat
  | .usage => 2
  | .help | .version | .printed _ | .wrote _ | .valid _ => 0
  | _ => 1

/-- What is written to the standard output. -/
def output : Ending → String
  | .version => "LiteSpec version " ++ ModelSchema.version true ++ "\n"
  | .printed text => text ++ "\n"
  | _ => ""

/-- The line that tells how the command ended. -/
def report? : Ending → Option Text
  | .wrote path => some ("✓ Wrote ".toList ++ path.toString.toList)
  | .valid data => some ("✓ ".toList ++ data.toString.toList ++ " is valid".toList)
  | .invalid data issues =>
    some (data.toString.toList ++ ": ".toList ++ Text.ofNat issues.length ++ " problem(s)".toList)
  | .parseError text => some ("✗ Parse error: ".toList ++ text)
  | .error text => some ("✗ Error: ".toList ++ text)
  | .cannotRead source => some ("✗ Cannot read ".toList ++ source.toString.toList)
  | .cannotLoad data => some ("✗ Cannot load ".toList ++ data.toString.toList)
  | _ => none

end Ending

/-- The end of a command, the events on the way, and the files after it. -/
structure Result where
  ending : Ending
  events : List Event
  files : FileTree

/-- The lines on the error output: the events that are to be logged, and the report. -/
def Result.errorLines (verbose : Bool) (r : Result) : List Text :=
  (r.events.filter fun e => verbose || e.isWarning).map Event.line ++ r.ending.report?.toList

/-- A file that cannot be reached is reported; one that is no text, or that cannot have a name,
breaks off the command. -/
def readFailure (source : Path) : FileTree.Fault → Ending
  | .notUtf8 => .escaped (.file .notUtf8)
  | .zeroCharacter => .escaped (.file .zeroCharacter)
  | _ => .cannotRead source

def configFailure (source : Path) (f : Config.Failure) : Ending :=
  match f, f.message? with
  | _, some text => .error text
  | .file fault, none => readFailure source fault
  | _, none => .escaped (.configuring f)

/-- The options for a source. They are looked for beside it, unless a place is given. -/
def loadOptions (files : FileTree) (source : Path) (config : Option Path) :
    Except Config.Failure (Options × List Event) := do
  let path ← match config with
    | some path => .ok (some path)
    | none => Config.find files source
  Config.load files path

def compileFailure : Failure → Ending
  | .reported r => .parseError r.text
  | .broken b => .escaped (.compiling b)

/-- The schema of a file, or how the command ends instead. -/
def compileSource (files : FileTree) (source : Path) (config : Option Path) :
    Except Ending Value × List Event :=
  match loadOptions files source config with
  | .error f => (.error (configFailure source f), [])
  | .ok (o, events) => match files.readText source with
    | .error f => (.error (readFailure source f), events)
    | .ok text =>
      let done := compile ⟨source.toString, o⟩ text
      (match done.failure with
        | none => .ok done.state
        | some f => .error (compileFailure f), events ++ done.events)

/-- The width from which on indentation cannot be counted, 2 to the power 63. -/
def countlessWidth : Nat := 9223372036854775808

/-- The width from which on there is no room for it, 2 to the power 47. -/
def roomlessWidth : Nat := 140737488355328

/-- The width of the indentation; a width that is not positive stands for none. -/
def indentOf (n : Int) : Except IndentFault (Option Nat) :=
  if n ≤ 0 then .ok none
  else if countlessWidth ≤ n.toNat then .error .tooWide
  else if roomlessWidth ≤ n.toNat then .error .noRoom
  else .ok (some n.toNat)

/-- Puts the schema out, or writes it to a file. -/
def deliver (files : FileTree) (events : List Event) (text : String) : Option Path → Result
  | none => ⟨.printed text, events, files⟩
  | some path => match files.write path (text ++ "\n").toUTF8.toList with
    | .ok files => ⟨.wrote path, events, files⟩
    | .error f => ⟨.escaped (.file f), events, files⟩

/-- Writes the schema of a document to the output or to a file. -/
def runCompile (files : FileTree) (source : Path) (output config : Option Path) (indent : Int) :
    Result :=
  match compileSource files source config with
  | (.error ending, events) => ⟨ending, events, files⟩
  | (.ok schema, events) => match indentOf indent with
    | .error f => ⟨.escaped (.indenting f), events, files⟩
    | .ok width => deliver files events (Json.render schema width) output

def validationFailure (f : ValidationFailure) : Ending :=
  match f.message?, f with
  | some text, _ => .error text
  | none, .faulty fault => .escaped (.checking fault)
  | none, .invalid _ => .error []

/-- The value in a JSON file, or how the command ends instead. -/
def loadData (files : FileTree) (data : Path) : Except Ending Value :=
  match files.readText data with
  | .error .notUtf8 => .error (.escaped (.file .notUtf8))
  | .error .zeroCharacter => .error (.escaped (.file .zeroCharacter))
  | .error _ => .error (.cannotLoad data)
  | .ok text => match Json.parse text with
    | .ok v => .ok v
    | .error .malformed => .error (.cannotLoad data)
    | .error .tooManyDigits => .error (.escaped (.json .tooManyDigits))

def judge (data : Path) (schema v : Value) : Ending :=
  match validate schema v with
  | .error f => validationFailure f
  | .ok [] => .valid data
  | .ok issues => .invalid data issues

/-- Checks a JSON document against the schema. -/
def runValidate (files : FileTree) (source data : Path) (config : Option Path) : Result :=
  match compileSource files source config with
  | (.error ending, events) => ⟨ending, events, files⟩
  | (.ok schema, events) => match loadData files data with
    | .error ending => ⟨ending, events, files⟩
    | .ok v => ⟨judge data schema v, events, files⟩

def runTask (files : FileTree) : Task → Result
  | .help => ⟨.help, [], files⟩
  | .version => ⟨.version, [], files⟩
  | .compile source output config indent => runCompile files source output config indent
  | .validate source data config => runValidate files source data config

/-- Whether everything is to be logged, and the result of a command line. -/
def run (files : FileTree) (words : List String) : Bool × Result :=
  match parse? words with
  | none => (false, ⟨.usage, [], files⟩)
  | some (verbose, task) => (verbose, runTask files task)

end ModelSchema.Command
