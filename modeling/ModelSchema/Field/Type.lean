import ModelSchema.Error.Cause
import ModelSchema.Text.Blank
import ModelSchema.Text.LowerCase
import ModelSchema.Value.Basic

namespace ModelSchema.FieldType

/-- The key under which a definition is stored and found. -/
def definitionKey (name : Text) : String := Text.str (Text.lower name)

/-- The pointer to a definition, whatever the case of its name. -/
def pointer (name : Text) : String := "#/$defs/" ++ definitionKey (Text.strip name)

/-- The text before the first `@`. -/
def declared (rawType : Text) : Text := Text.strip (rawType.takeWhile (· != '@'))

/-- Twenty-four hexadecimal digits, or nothing. -/
def objectIdPattern : String := "^([0-9a-fA-F]\x7b24\x7d)?$"

/-- The schema of a type that is a single name. -/
def primitive (name : Text) : Fields Value :=
  if name = "decimal".toList then [("bsonType", .text "Decimal128")]
  else if name = "objectid".toList then
    [("type", .text "string"), ("pattern", .text objectIdPattern)]
  else if name.isEmpty then []
  else [("type", .ofText name)]

def isArray (rawType : Text) : Bool := Text.startsWith "array(".toList rawType

/-- What an array holds. -/
inductive Item where
  | reference (name : Text)
  | primitive (name : Text)
  deriving DecidableEq, Repr

/-- The word between `before` and `after` at the start of a text. -/
def wordBetween? (before after t : Text) : Option Text :=
  match Text.after? before t with
  | none => none
  | some rest =>
    let word := rest.takeWhile Text.isWord
    if !word.isEmpty && Text.startsWith after (rest.dropWhile Text.isWord) then some word else none

/-- The items of a type `array(name)` or `array(@ref(Name))`. -/
def item? (rawType : Text) : Option Item :=
  match wordBetween? "array(@ref(".toList "))".toList rawType with
  | some name => some (.reference name)
  | none => (wordBetween? "array(".toList ")".toList rawType).map .primitive

def itemSchema : Item → Fields Value
  | .reference name => [("$ref", .text (pointer name))]
  | .primitive name => primitive name

/-- The tag of an item reference belongs to the items and not to the field. -/
def dropItemTag : Item → List Tag → List Tag
  | .reference name, tags => tags.eraseP fun tag => tag.raw = "@ref(".toList ++ name ++ [')']
  | .primitive _, tags => tags

def arraySchema (i : Item) : Fields Value :=
  [("type", .text "array"), ("items", .object (itemSchema i))]

/-- The schema of an array field, and the tags that are left for it. -/
def resolveArray (field rawType : Text) (tags : List Tag) :
    Except Failure (Fields Value × List Tag) :=
  match item? rawType with
  | some i => .ok (arraySchema i, dropItemTag i tags)
  | none => .error (.because (.arrayType field rawType))

/-- The schema of a field before its tags take effect, and those tags. -/
def resolve (field rawType : Text) (tags : List Tag) : Except Failure (Fields Value × List Tag) :=
  if isArray rawType then resolveArray field rawType tags
  else .ok (primitive (declared rawType), tags)

end ModelSchema.FieldType
