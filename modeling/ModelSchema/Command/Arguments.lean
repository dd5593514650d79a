import ModelSchema.Files.Path
import ModelSchema.Number.Whole

namespace ModelSchema.Command

/-- An option under its long name, perhaps with a one-letter name. A switch takes no value. -/
structure Switch where
  long : String
  short : Option Char := none
  takesValue : Bool := false

def globalSwitches : List Switch :=
  [⟨"version", some 'v', false⟩, ⟨"verbose", none, false⟩, ⟨"help", none, false⟩]

def compileSwitches : List Switch :=
  [⟨"output", some 'o', true⟩, ⟨"indent", none, true⟩, ⟨"config", some 'c', true⟩,
    ⟨"help", none, false⟩]

def validateSwitches : List Switch := [⟨"config", some 'c', true⟩, ⟨"help", none, false⟩]

/-- What has been given: options by their long names with their values, the last first, and
operands. -/
structure Given where
  options : List (String × String) := []
  operands : List String := []

namespace Given

def option (g : Given) (s : Switch) (value : String) : Given :=
  { g with options := (s.long, value) :: g.options }

def value? (g : Given) (name : String) : Option String := g.options.lookup name

def has (g : Given) (name : String) : Bool := (g.value? name).isSome

end Given

/-- The one-letter options in a word, after its dash. The rest of the word, or else the next word,
is the value of the first that takes one. -/
def readShort (switches : List Switch) (words : List String) :
    Given → Text → Option (Given × List String)
  | g, [] => some (g, words)
  | g, c :: rest => do
    let s ← switches.find? fun s => s.short == some c
    if !s.takesValue then readShort switches words (g.option s "") rest
    else if rest.isEmpty then
      match words with
      | [] => none
      | value :: words => some (g.option s value, words)
    else some (g.option s (Text.str rest), words)

/-- An option under its long name, with its value after an equals sign or in the next word. -/
def readLong (switches : List Switch) (words : List String) (g : Given) (word : Text) :
    Option (Given × List String) := do
  let (name, value) := match Text.cut? '=' word with
    | some (name, value) => (name, some value)
    | none => (word, none)
  let s ← switches.find? fun s => s.long.toList == name
  match s.takesValue, value with
  | false, none => some (g.option s "", words)
  | false, some _ => none
  | true, some value => some (g.option s (Text.str value), words)
  | true, none => match words with
    | [] => none
    | value :: words => some (g.option s value, words)

/-- Reads words in `fuel` steps; `mixed` tells whether options may follow operands. Gives what is
left when an operand ends the options. -/
def readWords (switches : List Switch) (mixed : Bool) :
    Nat → Given → List String → Option (Given × List String)
  | 0, g, words => some (g, words)
  | _, g, [] => some (g, [])
  | fuel + 1, g, word :: words =>
    match word.toList with
    | ['-', '-'] =>
      if mixed then some ({ g with operands := g.operands ++ words }, []) else some (g, words)
    | '-' :: '-' :: rest => do
      let (g, words) ← readLong switches words g rest
      readWords switches mixed fuel g words
    | '-' :: c :: rest => do
      let (g, words) ← readShort switches words g (c :: rest)
      readWords switches mixed fuel g words
    | _ =>
      if mixed then readWords switches mixed fuel { g with operands := g.operands ++ [word] } words
      else some (g, word :: words)

def read (switches : List Switch) (mixed : Bool) (words : List String) :
    Option (Given × List String) :=
  readWords switches mixed (words.length + 1) {} words

/-- What is to be done. -/
inductive Task where
  | help
  | version
  | compile (source : Path) (output config : Option Path) (indent : Int)
  | validate (source data : Path) (config : Option Path)
  deriving DecidableEq, Repr

/-- A path that is given as a word; the character zero can stand in none. -/
def path? (word : String) : Option Path :=
  if word.toList.contains '\x00' then none else some (.ofString word)

/-- The path given with an option, if the option is given. -/
def pathOption? (g : Given) (name : String) : Option (Option Path) :=
  match g.value? name with
  | none => some none
  | some word => (path? word).map some

def indentOption? (g : Given) : Option Int :=
  match g.value? "indent" with
  | none => some 2
  | some word => Number.whole? word.toList

def compileTask? (g : Given) : Option Task :=
  match g.operands with
  | [source] => do
    return .compile (← path? source) (← pathOption? g "output") (← pathOption? g "config")
      (← indentOption? g)
  | _ => none

def validateTask? (g : Given) : Option Task :=
  match g.operands with
  | [source, data] => do
    return .validate (← path? source) (← path? data) (← pathOption? g "config")
  | _ => none

/-- The task of a command with its own words. -/
def commandTask? (switches : List Switch) (task? : Given → Option Task) (words : List String) :
    Option Task := do
  let (g, _) ← read switches true words
  if g.has "help" then return .help else task? g

/-- Whether everything is to be logged, and the task; `none` if the words make no sense. -/
def parse? (words : List String) : Option (Bool × Task) := do
  let (g, rest) ← read globalSwitches false words
  if g.has "version" then return (false, .version)
  else if g.has "help" then return (false, .help)
  else
    let task ← match rest with
      | "compile" :: words => commandTask? compileSwitches compileTask? words
      | "validate" :: words => commandTask? validateSwitches validateTask? words
      | _ => none
    return (g.has "verbose", task)

end ModelSchema.Command
