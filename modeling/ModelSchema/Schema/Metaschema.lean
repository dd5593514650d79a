import ModelSchema.Value.Basic

namespace ModelSchema.Metaschema

def ref (pointer : String) : Value := .object [("$ref", .text pointer)]

def typed (name : String) : Value := .object [("type", .text name)]

/-- A schema. -/
def aSchema : Value := ref "#"

/-- Schemas under free names. -/
def schemaTable : Fields Value := [("type", .text "object"), ("additionalProperties", aSchema)]

def schemaArray : Value := ref "#/definitions/schemaArray"

def size : Value := ref "#/definitions/nonNegativeInteger"

def sizeOrZero : Value := ref "#/definitions/nonNegativeIntegerDefault0"

def names : Value := ref "#/definitions/stringArray"

def simpleType : Value := ref "#/definitions/simpleTypes"

def definitions : Fields Value :=
  [("schemaArray",
      .object [("type", .text "array"), ("minItems", .int 1), ("items", aSchema)]),
    ("nonNegativeInteger", .object [("type", .text "integer"), ("minimum", .int 0)]),
    ("nonNegativeIntegerDefault0", .object [("allOf", .array [size, .object []])]),
    ("simpleTypes",
      .object [("enum",
        .texts ["array", "boolean", "integer", "null", "number", "object", "string"])]),
    ("stringArray",
      .object [("type", .text "array"), ("items", typed "string"), ("uniqueItems", .bool true)])]

def keywords : Fields Value :=
  [("$id", typed "string"), ("$schema", typed "string"), ("$ref", typed "string"),
    ("$comment", typed "string"), ("title", typed "string"), ("description", typed "string"),
    ("default", .bool true), ("readOnly", typed "boolean"),
    ("examples", .object [("type", .text "array"), ("items", .bool true)]),
    ("multipleOf", .object [("type", .text "number"), ("exclusiveMinimum", .int 0)]),
    ("maximum", typed "number"), ("exclusiveMaximum", typed "number"),
    ("minimum", typed "number"), ("exclusiveMinimum", typed "number"),
    ("maxLength", size), ("minLength", sizeOrZero),
    ("pattern", .object [("type", .text "string"), ("format", .text "regex")]),
    ("additionalItems", aSchema), ("items", .object [("anyOf", .array [aSchema, schemaArray])]),
    ("maxItems", size), ("minItems", sizeOrZero), ("uniqueItems", typed "boolean"),
    ("contains", aSchema), ("maxProperties", size), ("minProperties", sizeOrZero),
    ("required", names), ("additionalProperties", aSchema),
    ("definitions", .object schemaTable), ("properties", .object schemaTable),
    ("patternProperties",
      .object (schemaTable ++ [("propertyNames", .object [("format", .text "regex")])])),
    ("dependencies",
      .object [("type", .text "object"),
        ("additionalProperties", .object [("anyOf", .array [aSchema, names])])]),
    ("propertyNames", aSchema), ("const", .bool true),
    ("enum", .object [("type", .text "array"), ("items", .bool true)]),
    ("type",
      .object [("anyOf",
        .array
          [simpleType,
            .object [("type", .text "array"), ("items", simpleType), ("minItems", .int 1),
              ("uniqueItems", .bool true)]])]),
    ("format", typed "string"), ("contentMediaType", typed "string"),
    ("contentEncoding", typed "string"), ("if", aSchema), ("then", aSchema), ("else", aSchema),
    ("allOf", schemaArray), ("anyOf", schemaArray), ("oneOf", schemaArray), ("not", aSchema)]

/-- What a schema has to satisfy itself: each keyword with a meaning has a value of the right
kind. -/
def schema : Value :=
  .object
    [("definitions", .object definitions), ("type", .texts ["object", "boolean"]),
      ("properties", .object keywords)]

end ModelSchema.Metaschema
