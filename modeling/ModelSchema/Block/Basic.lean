import ModelSchema.Block.Gathered
import ModelSchema.Event
import ModelSchema.Field.Type
import ModelSchema.Source.Line

namespace ModelSchema

/-- The body of a definition or of the model, as far as it has been read. -/
structure Block where
  header : SourceLine
  name : Text
  shape : Shape
  properties : Fields Value := []
  gathered : Gathered := {}

namespace Block

def key (b : Block) : String := FieldType.definitionKey b.name

/-- The object schema of the block, with further entries. -/
def body (b : Block) (further : Fields Value) : Fields Value :=
  ("type", .text "object") :: ("properties", .object b.properties) :: further

/-- The schema that the block adds to the document. -/
def schema (b : Block) (further : Fields Value) : Fields Value :=
  match b.shape with
  | .model => ("title", .text b.key) :: b.body further
  | .object => b.body further
  | .array => [("type", .text "array"), ("items", .object (b.body further))]

/-- The schema while the block is open: what it gathers is not written yet. -/
def openSchema (b : Block) : Fields Value := b.schema []

def closedSchema (b : Block) : Fields Value := b.schema b.gathered.entries

end Block

/-- The schema under a key, and the line of the header of the block that owns it. -/
structure Definition where
  owner : Nat
  schema : Fields Value

/-- The schema of the last block under each key, and the schema of the model. Both are kept up to
date while a block is still open. -/
structure Document where
  definitions : Fields Definition := []
  root : Fields Value := []

namespace Document

def definitionsValue (d : Document) : Value :=
  .object (d.definitions.map fun e => (e.1, .object e.2.schema))

/-- The schema of the whole document. -/
def toValue (d : Document) : Value := .object (("$defs", d.definitionsValue) :: d.root)

def define (b : Block) (schema : Fields Value) (d : Document) : Document :=
  { d with definitions := d.definitions.put b.key ⟨b.header.number, schema⟩ }

/-- A new block takes its key. -/
def register (b : Block) (d : Document) : Document :=
  match b.shape with
  | .model => { d with root := b.openSchema }
  | _ => d.define b b.openSchema

def owns (b : Block) (d : Document) : Bool :=
  (d.definitions.get? b.key).any fun e => e.owner == b.header.number

/-- A block shows its new schema. If it has lost its key to a later block, the schema goes
nowhere. -/
def publish (b : Block) (schema : Fields Value) (d : Document) : Document :=
  match b.shape with
  | .model => { d with root := schema }
  | _ => if d.owns b then d.define b schema else d

end Document

end ModelSchema
