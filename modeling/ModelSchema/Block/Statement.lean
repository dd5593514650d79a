import ModelSchema.Block.Basic
import ModelSchema.Expression.Condition
import ModelSchema.Field.Effect

namespace ModelSchema

/-- The name of the source, and the options that it is compiled with. -/
structure Setting where
  source : String := "<string>"
  options : Options := {}

namespace Setting

/-- The start of a line. -/
def lineStart (env : Setting) (line : SourceLine) : Location :=
  ⟨env.source, line.number, 1, some line.text⟩

def failAt (env : Setting) (line : SourceLine) (c : Cause) : Failure :=
  .located (env.lineStart line) c

end Setting

/-- A field name, the text after its colon, and how many characters stand before that text. -/
def Declaration.read? (t : Text) : Option (Declaration × Nat) :=
  match Text.cut? ':' t with
  | none => none
  | some (name, rest) =>
    if Text.isBlankText name then none
    else some (⟨Text.strip name, Text.strip rest⟩,
      name.length + 1 + (rest.takeWhile Text.isBlank).length)

namespace Block

/-- The tags of a declaration and its schema before they take effect. -/
def prepare (env : Setting) (line : SourceLine) :
    Except Failure (Declaration × Fields Value × List Tag) := do
  let some (d, offset) := Declaration.read? line.text
    | .error (env.failAt line .notAField)
  let tags ← Tag.scanAt env.source line.number offset d.rawType
  let (schema, tags) ← FieldType.resolve d.field d.rawType tags
  return (d, schema, tags)

def declaredTwice (env : Setting) (line : SourceLine) (field : Text) (b : Block) : List Event :=
  if b.properties.has (Text.str field) then
    [.declaredTwice env.source line.number field b.name]
  else []

/-- Stores a finished field. -/
def store (field : Text) (s : FieldState) (b : Block) : Block :=
  { b with properties := b.properties.put (Text.str field) (.object s.schema)
           gathered := s.gathered }

def addField (env : Setting) (line : SourceLine) (b : Block) : Outcome Block :=
  match prepare env line with
  | .error f => .fail b [] f
  | .ok (d, schema, tags) =>
    match FieldState.applyTags env.options d tags ⟨schema, b.gathered⟩ with
    | ⟨_, events, some f⟩ => .fail b events f
    | ⟨s, events, none⟩ =>
      .ok (b.store d.field s) (events ++ b.declaredTwice env line d.field)

def gather (b : Block) (change : Gathered → Gathered) : Block :=
  { b with gathered := change b.gathered }

/-- The name of the tag that a statement starts with. -/
def leadingTag (t : Text) : Text := (t.drop 1).takeWhile Text.isWord

/-- What a tag about the block adds to what the block gathers; `none` if it has no meaning
there. -/
def tagChange? (o : Options) (t : Text) : Option (Except Failure (Gathered → Gathered)) :=
  match Kind.ofName? (leadingTag t) with
  | some .condition => some ((Rule.compile o t).map Gathered.addRule)
  | some .breadcrumb => some ((BreadcrumbRule.compile t).map Gathered.addBreadcrumb)
  | some .sort => some ((SortRule.compile t).map Gathered.addSort)
  | some .can => some ((Permission.compile t).map Gathered.addCollection)
  | _ => none

def addTag (env : Setting) (line : SourceLine) (b : Block) : Outcome Block :=
  match tagChange? env.options line.text with
  | none => .ok b [.skipped env.source line.number line.text]
  | some (.error f) => .fail b [] f
  | some (.ok change) => .ok (b.gather change) []

def isTag (t : Text) : Bool := t.head? == some '@'

/-- A statement of the block: a tag about it, or the declaration of a field. A report about it that
has no place yet is located at its line. -/
def addStatement (env : Setting) (line : SourceLine) (b : Block) : Outcome Block :=
  let o := if isTag line.text then b.addTag env line else b.addField env line
  ⟨o.state, o.events, o.failure.map (·.locate (env.lineStart line))⟩

end Block

end ModelSchema
