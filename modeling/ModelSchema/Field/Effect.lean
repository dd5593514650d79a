import ModelSchema.Block.Gathered
import ModelSchema.Event
import ModelSchema.Expression.Permission
import ModelSchema.Field.Type
import ModelSchema.Literal
import ModelSchema.Tag.Kind

namespace ModelSchema

/-- The name of a field, and the text after its colon. -/
structure Declaration where
  field : Text
  rawType : Text
  deriving DecidableEq, Repr

/-- What a tag does to the schema of its field, or to what the block gathers. It follows from the
tag and the declaration alone, not from the tags before it. -/
inductive Effect where
  | require
  | keyword (key : String) (v : Value)
  /-- The field holds a timestamp or an empty text, in place of its type. -/
  | timestampOrEmpty
  | hint (h : Hints)
  | permit (p : Fields String)
  | ignore

namespace Effect

/-- The text up to the first `)`, with no newline before it. -/
def upToClose? : Text → Option Text
  | [] => none
  | c :: t =>
    if c == ')' then some []
    else if c == '\n' then none
    else (upToClose? t).map (c :: ·)

/-- The text between the first `head` in a text and the next `)`. -/
def searchCall? (head : Text) : Text → Option Text
  | [] => none
  | c :: t =>
    match (Text.after? head (c :: t)).bind upToClose? with
    | some inner => some inner
    | none => searchCall? head t

/-- An argument that is not blank. -/
def needArgument (tag : Tag) : Except Failure Text :=
  match tag.argument with
  | none => .error (.because (.noArgument tag))
  | some a => if Text.isBlankText a then .error (.because (.noArgument tag)) else .ok a

def parseNumber (t : Text) : Except Failure Number :=
  (Number.parse t).mapError Failure.ofNumberFault

def ofEnum (d : Declaration) : Except Failure Effect :=
  match searchCall? "@enum(".toList d.rawType with
  | none => .error (.because (.noChoices d.field))
  | some inner =>
    .ok (.keyword "enum" (.array ((Text.splitOn ',' inner).map fun m => .ofText (Text.strip m))))

def ofRef (d : Declaration) : Except Failure Effect :=
  match (searchCall? "@ref(".toList d.rawType).filter (!Text.isBlankText ·) with
  | none => .error (.because (.noReference d.field))
  | some name => .ok (.keyword "$ref" (.text (FieldType.pointer name)))

/-- The place of a field in its group: an integer numeral, else zero. -/
def readOrder (t : Text) : Except Failure Int :=
  match Number.integer? t with
  | none => .ok 0
  | some n => (Number.ofIntegerNumeral n).mapError Failure.ofNumberFault

def ofUi (tag : Tag) : Except Failure Effect := do
  let argument ← needArgument tag
  let slots := (Text.splitOn ',' argument).map Text.strip
  let slot (i : Nat) : Text := (slots[i]?).getD []
  let order ← readOrder (slot 3)
  return .hint ⟨slot 0, slot 1, order, slot 2, slot 4, slot 5, slot 6, slot 7⟩

def ofLimit (tag : Tag) : Except Failure Effect := do
  let argument := Text.strip (← needArgument tag)
  if Number.isNumeral argument then
    return .keyword (Text.str tag.name) (.number (← parseNumber argument))
  else .error (.because (.notANumber tag.name argument))

def ofFormat (tag : Tag) : Except Failure Effect := do
  let format := Text.strip (← needArgument tag)
  return if format = "date-time".toList then .timestampOrEmpty
    else .keyword "format" (.ofText format)

def literalKeyword (key : String) (hint : Option Text) (raw : Text) : Except Failure Effect :=
  ((Literal.coerce hint raw).mapError Failure.ofNumberFault).map (.keyword key)

/-- The type that the literal of a default is read for. -/
def defaultHint (o : Options) (d : Declaration) : Option Text :=
  match o.coercion with
  | .legacy => none
  | .typed => some (FieldType.declared d.rawType)

def ofDefault (o : Options) (d : Declaration) (tag : Tag) : Except Failure Effect :=
  match tag.argument with
  | none => .error (.because (.noDefault d.field))
  | some raw => literalKeyword "default" (defaultHint o d) raw

def ofConst (d : Declaration) (tag : Tag) : Except Failure Effect :=
  match tag.argument with
  | none => .error (.because (.noConst d.field))
  | some raw => literalKeyword "const" none raw

/-- The effect of a tag on a field. Tags of blocks and tags without a meaning have none. -/
def ofTag (o : Options) (d : Declaration) (tag : Tag) : Except Failure Effect :=
  match tag.kind? with
  | some .required => .ok .require
  | some .enum => ofEnum d
  | some .ref => ofRef d
  | some .ui => ofUi tag
  | some (.limit _) => ofLimit tag
  | some .uniqueItems => .ok (.keyword "uniqueItems" (.bool true))
  | some .format => ofFormat tag
  | some .email => .ok (.keyword "format" (.text "email"))
  | some .uuid => .ok (.keyword "format" (.text "uuid"))
  | some .pattern => (needArgument tag).map fun a => .keyword "pattern" (.ofText a)
  | some .default => ofDefault o d tag
  | some .const => ofConst d tag
  | some .can => (Permission.compile (tag.argument.getD [])).map .permit
  | some .condition | some .sort | some .breadcrumb | none => .ok .ignore

end Effect

/-- A field in the making: its schema, and what the block has gathered. -/
structure FieldState where
  schema : Fields Value
  gathered : Gathered

namespace FieldState

/-- A timestamp, or an empty text. -/
def timestampOrEmpty : Value :=
  .array
    [.object [("type", .text "string"), ("format", .text "date-time")],
      .object [("type", .text "string"), ("enum", .array [.text ""])]]

def apply (field : String) (s : FieldState) : Effect → FieldState
  | .require => { s with gathered.required := s.gathered.required ++ [field] }
  | .keyword key v => { s with schema := s.schema.put key v }
  | .timestampOrEmpty =>
    { s with schema := (s.schema.erase "type").put "anyOf" timestampOrEmpty }
  | .hint h => { s with gathered.hints := s.gathered.hints.put field h }
  | .permit p =>
    { s with gathered.fieldPermissions := s.gathered.fieldPermissions ++ [(field, p)] }
  | .ignore => s

def eventsOf (d : Declaration) (tag : Tag) : Effect → List Event
  | .ignore => [.ignoredTag tag.raw d.field]
  | _ => []

/-- Applies the tags in order, up to the first that fails. -/
def applyTags (o : Options) (d : Declaration) : List Tag → FieldState → Outcome FieldState
  | [], s => .ok s []
  | tag :: tags, s =>
    match Effect.ofTag o d tag with
    | .error f => .fail s [] f
    | .ok e => (applyTags o d tags (s.apply (Text.str d.field) e)).after (eventsOf d tag e)

end FieldState

end ModelSchema
