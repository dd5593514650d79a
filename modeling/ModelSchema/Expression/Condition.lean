import ModelSchema.Error.Scan
import ModelSchema.Literal
import ModelSchema.Options
import ModelSchema.Tag.Kind

namespace ModelSchema

/-- An object that satisfies the antecedent has to satisfy the consequent. -/
structure Rule where
  antecedent : Fields Value
  consequent : Fields Value

namespace Rule

def toValue (r : Rule) : Value :=
  .object [("if", .object r.antecedent), ("then", .object r.consequent)]

/-- The value of a keyword: a list of choices, or a literal. -/
def keywordValue (kind? : Option Kind) (argument : Text) : Except Failure Value :=
  if kind? = some .enum then .ok (.texts ((Literal.choices argument).map Text.str))
  else (Literal.coerce none argument).mapError Failure.ofNumberFault

def addCondition (expression : Text) (keywords : Fields Value) (tag : Tag) :
    Except Failure (Fields Value) :=
  match tag.argument with
  | none => .error (.because (.condition (.conditionWithoutValue tag) expression))
  | some a => (keywordValue tag.kind? a).map (keywords.put (Text.str tag.name))

/-- The schema of an object whose property `segment` satisfies `inner`. When `strict` the
property has to be there. -/
def wrap (strict : Bool) (segment : Text) (inner : Fields Value) : Fields Value :=
  ("properties", .object [(Text.str segment, .object inner)]) ::
    if strict then [("required", .array [.ofText segment])] else []

/-- One level of nesting for each segment, the last segment innermost. -/
def nest (strict : Bool) (path : List Text) (inner : Fields Value) : Fields Value :=
  path.foldr (wrap strict) inner

def buildAntecedent (o : Options) (path : List Text) (expression : Text) (tags : List Tag) :
    Except Failure (Fields Value) :=
  (tags.foldlM (addCondition expression) []).map (nest o.requireConditionProperties path)

/-- The names in a list, empty ones left out. -/
def listedNames (argument : Text) : List Text :=
  ((Text.splitOn ',' argument).map Text.strip).filter (!·.isEmpty)

def require (names : List Text) (done : Fields Value) : Fields Value :=
  let new := names.map Value.ofText
  match done.get? "required" with
  | some (.array old) => done.put "required" (.array (old ++ new))
  | _ => done.put "required" (.array new)

/-- A property and the value of a keyword for it. -/
def target? (argument : Text) : Option (Text × Text) :=
  match Text.splitTopLevel (· == ',') (some 1) argument with
  | [target, value] =>
    if Text.isWordText (Text.strip target) then some (Text.strip target, Text.strip value) else none
  | _ => none

/-- Sets a keyword of one property. -/
def setTarget (target keyword : String) (v : Value) (done : Fields Value) :
    Except Failure (Fields Value) :=
  match done.get? "properties" with
  | none => .ok (done.put "properties" (.object [(target, .object [(keyword, v)])]))
  | some (.object targets) =>
    let keywords := ((Fields.get? target targets).bind Value.fields?).getD []
    let targets := Fields.put target (.object (keywords.put keyword v)) targets
    .ok (done.put "properties" (.object targets))
  | some _ => .error (.broken .propertiesReplaced)

/-- An action requires properties, or sets a keyword of one property, or sets a keyword of the
object itself. -/
def addAction (expression : Text) (done : Fields Value) (tag : Tag) :
    Except Failure (Fields Value) :=
  match tag.argument with
  | none => .error (.because (.condition (.actionWithoutArgument tag) expression))
  | some a =>
    if tag.kind? = some .required then .ok (require (listedNames a) done)
    else match target? a with
      | some (target, value) =>
        (keywordValue tag.kind? value).bind (setTarget (Text.str target) (Text.str tag.name) · done)
      | none => .ok (done.put (Text.str tag.name) (.ofText a))

def buildConsequent (expression : Text) (tags : List Tag) : Except Failure (Fields Value) :=
  tags.foldlM (addAction expression) []

/-- Words joined by points. -/
def path? (t : Text) : Option (List Text) :=
  let segments := Text.splitOn '.' t
  if segments.all Text.isWordText then some segments else none

/-- The path, the condition text and the action text of an expression. -/
def parts (expression : Text) : Except ConditionFault (List Text × Text × Text) :=
  match Text.enclosed? "@if(".toList (Text.strip expression) with
  | none => .error .notACall
  | some body =>
    match (Text.cut? ':' body).bind fun p => (path? (Text.strip p.1)).map (·, p.2) with
    | none => .error .noProperty
    | some (path, rest) =>
      match Text.splitTopLevel (· == ',') (some 1) rest with
      | [conditions, actions] => .ok (path, conditions, actions)
      | _ => .error .noSeparator

/-- The rule of `@if(path: conditions, actions)`. The path leads through nested objects to the
property that the conditions are about. -/
def compile (o : Options) (expression : Text) : Except Failure Rule := do
  let fault (f : ConditionFault) : Failure := .because (.condition f expression)
  let (path, conditionText, actionText) ← (parts expression).mapError fault
  let conditions ← Tag.scanPart conditionText
  let actions ← Tag.scanPart actionText
  if conditions.isEmpty then .error (fault .noConditions)
  if actions.isEmpty then .error (fault .noActions)
  let antecedent ← buildAntecedent o path expression conditions
  let consequent ← buildConsequent expression actions
  return ⟨antecedent, consequent⟩

end Rule

end ModelSchema
