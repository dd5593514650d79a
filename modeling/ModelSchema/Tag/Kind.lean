import ModelSchema.Tag.Basic

namespace ModelSchema

/-- The keywords that take a number. -/
inductive Limit where
  | minItems | maxItems | minLength | maxLength
  | minimum | maximum | exclusiveMinimum | exclusiveMaximum | multipleOf
  deriving DecidableEq, Repr

/-- The meanings that a tag can have. -/
inductive Kind where
  | required | enum | ref | ui
  | limit (l : Limit)
  | uniqueItems | format | pattern | default | const | can | uuid | email
  | condition | sort | breadcrumb
  deriving DecidableEq, Repr

namespace Kind

def names : List (String × Kind) :=
  [("required", .required), ("enum", .enum), ("ref", .ref), ("ui", .ui),
    ("minItems", .limit .minItems), ("maxItems", .limit .maxItems),
    ("minLength", .limit .minLength), ("maxLength", .limit .maxLength),
    ("minimum", .limit .minimum), ("maximum", .limit .maximum),
    ("exclusiveMinimum", .limit .exclusiveMinimum),
    ("exclusiveMaximum", .limit .exclusiveMaximum), ("multipleOf", .limit .multipleOf),
    ("uniqueItems", .uniqueItems), ("format", .format), ("pattern", .pattern),
    ("default", .default), ("const", .const), ("can", .can), ("uuid", .uuid), ("email", .email),
    ("if", .condition), ("sort", .sort), ("breadcrumb", .breadcrumb)]

def ofName? (name : Text) : Option Kind := names.lookup (Text.str name)

end Kind

def Tag.kind? (t : Tag) : Option Kind := Kind.ofName? t.name

end ModelSchema
