import ModelSchema.Text.Basic

namespace ModelSchema

/-- A place in a source. The snippet is the statement on that line. -/
structure Location where
  source : String
  line : Int
  column : Int
  snippet : Option Text
  deriving DecidableEq, Repr

namespace Location

def lineLabel (line : Int) : Text := Text.padLeft 4 (Text.ofInt line) ++ " | ".toList

/-- The statement with its line number, and a marker under the column. -/
def snippetText (l : Location) (snippet : Text) : Text :=
  let label := lineLabel l.line
  label ++ snippet ++ '\n' :: List.replicate (label.length + l.column - 1).toNat ' ' ++ "^^^".toList

def head (l : Location) : Text :=
  l.source.toList ++ ':' :: Text.ofInt l.line ++ ':' :: Text.ofInt l.column

def text (l : Location) : Text :=
  match l.snippet with
  | none | some [] => l.head
  | some snippet => l.head ++ '\n' :: l.snippetText snippet

end Location

/-- Errors that can be put into words. -/
class HasMessage (ε : Type) where
  message : ε → Text

/-- An error with the place in the source that it is about. The text is kept beside the two that it
is made of, and is made again each time the report is located. -/
structure Report (ε : Type) where
  cause : ε
  location : Option Location
  text : Text
  deriving DecidableEq, Repr

namespace Report

variable {ε : Type} [HasMessage ε]

/-- The place, where there is one, and the message. -/
def words (cause : ε) : Option Location → Text
  | none => HasMessage.message cause
  | some l => l.text ++ '\n' :: HasMessage.message cause

def raised (cause : ε) (location : Option Location) : Report ε :=
  ⟨cause, location, words cause location⟩

/-- A report about no place in particular. -/
def bare (cause : ε) : Report ε := raised cause none

/-- A report about a place. -/
def about (l : Location) (cause : ε) : Report ε := raised cause (some l)

/-- The report with its text made again. -/
def reword (r : Report ε) : Report ε := { r with text := words r.cause r.location }

/-- The place of a report that is located at `new` after `old`. The first place stays. Only a place
without a snippet takes that of a later one on the same line. -/
def settle (old : Option Location) (new : Location) : Location :=
  match old with
  | none => new
  | some l =>
    if l.snippet.isNone ∧ l.line = new.line then ⟨l.source, l.line, l.column, new.snippet⟩ else l

def locate (new : Location) (r : Report ε) : Report ε :=
  reword { r with location := some (settle r.location new) }

/-- Whether the report still looks at the line of a later place. -/
def awaitsSnippet (r : Report ε) : Bool := r.location.any fun l => l.snippet.isNone

/-- Locates a report at a place that may be absent. The place then stays as it is, unless the report
has to look at the new one. -/
def locate? (new : Option Location) (r : Report ε) : Option (Report ε) :=
  match new with
  | some l => some (r.locate l)
  | none => if r.awaitsSnippet then none else some r.reword

theorem locate_about (l new : Location) (cause : ε) :
    (about l cause).locate new = about (settle (some l) new) cause := rfl

/-- The text shows the place as it is now. -/
def InStep (r : Report ε) : Prop := r.text = words r.cause r.location

instance (r : Report ε) : Decidable r.InStep :=
  inferInstanceAs (Decidable (r.text = words r.cause r.location))

theorem inStep_raised (cause : ε) (location : Option Location) : (raised cause location).InStep :=
  rfl

theorem inStep_locate (l : Location) (r : Report ε) : (r.locate l).InStep := rfl

end Report

end ModelSchema
