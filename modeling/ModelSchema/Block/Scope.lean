import ModelSchema.Field.Effect

namespace ModelSchema

/-- A schema that is already there, and what is gathered for it. The schema takes fields as they are
declared, and the rest each time the scope is flushed. -/
structure Scope where
  target : Fields Value := []
  gathered : Gathered := {}

namespace Scope

/-- Stores a field among the properties of the target. -/
def store (field : String) (schema : Fields Value) (s : Scope) : Except Breakdown Scope :=
  match s.target.get? "properties" with
  | none => .ok { s with target := s.target.put "properties" (.object [(field, .object schema)]) }
  | some (.object old) =>
    let properties := Fields.put field (.object schema) old
    .ok { s with target := s.target.put "properties" (.object properties) }
  | some _ => .error .notAnObject

/-- Applies the tags of a field to its schema and stores it. The result has the schema as far as
the tags were applied. -/
def declare (o : Options) (d : Declaration) (tags : List Tag) (schema : Fields Value) (s : Scope) :
    Outcome (Scope × Fields Value) :=
  let done := FieldState.applyTags o d tags ⟨schema, s.gathered⟩
  let s := { s with gathered := done.state.gathered }
  match done.failure with
  | some f => .fail (s, done.state.schema) done.events f
  | none => match s.store (Text.str d.field) done.state.schema with
    | .ok s => .ok (s, done.state.schema) done.events
    | .error b => .fail (s, done.state.schema) done.events (.broken b)

/-- Takes in what an expression adds to what is gathered. -/
def gather (change : Except Failure (Gathered → Gathered)) (s : Scope) : Outcome Scope :=
  match change with
  | .ok f => .ok { s with gathered := f s.gathered } []
  | .error f => .fail s [] f

def addRule (o : Options) (expression : Text) (s : Scope) : Outcome Scope :=
  s.gather ((Rule.compile o expression).map Gathered.addRule)

def addSort (expression : Text) (s : Scope) : Outcome Scope :=
  s.gather ((SortRule.compile expression).map Gathered.addSort)

def addBreadcrumb (expression : Text) (s : Scope) : Outcome Scope :=
  s.gather ((BreadcrumbRule.compile expression).map Gathered.addBreadcrumb)

def addPermissions (expression : Text) (s : Scope) : Outcome Scope :=
  s.gather ((Permission.compile expression).map Gathered.addCollection)

/-- Writes what was gathered to the target. -/
def flush (s : Scope) : Except Breakdown Scope :=
  (s.gathered.flush s.target).map fun target => { s with target }

end Scope

end ModelSchema
