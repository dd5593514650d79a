import ModelSchema.Schema.Keyword
import ModelSchema.Schema.Metaschema

namespace ModelSchema

namespace Schema

/-- The document that references lead into, and whether formats are looked at. -/
structure Context where
  root : Value
  formats : Bool

def forbidden (v : Value) : Findings :=
  ⟨[⟨[], none, "False schema does not allow ".toList ++ v.displayed⟩], none⟩

/-- A reference and its target, or the keywords in order. -/
def checkObject (ctx : Context) (check : Keyword.Check) (fs : Fields Value) (v : Value) :
    Findings :=
  match fs.get? "$ref" with
  | some (.text reference) => .ofExcept do
    return check (← Pointer.resolve ctx.root reference.toList) v
  | some _ => .faulty .notASchema
  | none => .each (fun e => .ofExcept (Keyword.run ctx.formats check fs v e.1 e.2)) fs

/-- Checks a value to a depth of `fuel` schemas within schemas. -/
def checkTo (ctx : Context) : Nat → Value → Value → Findings
  | 0, _, _ => .faulty .endlessReference
  | fuel + 1, schema, v =>
    match schema with
    | .bool true => .nothing
    | .bool false => forbidden v
    | .object fs => checkObject ctx (checkTo ctx fuel) fs v
    | _ => .faulty .notASchema

/-- A check goes deeper only into the value or along the schemas for one part of it, and no schema
can come twice for the same part unless references run in a circle. -/
def enough (root schema v : Value) : Nat := (v.depth + 2) * (root.size + schema.size + 1)

def check (ctx : Context) (schema v : Value) : Findings :=
  checkTo ctx (enough ctx.root schema v) schema v

end Schema

/-- Why a value cannot be validated. -/
inductive ValidationFailure where
  /-- The schema does not satisfy the schema of schemas. -/
  | invalid (first : Issue)
  | faulty (f : SchemaFault)

namespace ValidationFailure

def joined (sep : String) : List String → String
  | [] => "root"
  | steps => sep.intercalate steps

/-- What is said of a schema that cannot be used. -/
def message? : ValidationFailure → Option Text
  | .invalid i =>
    some ("Compiled schema is not valid draft-07 at ".toList ++ (joined "/" i.path).toList ++
      ": ".toList ++ i.message)
  | .faulty (.unknownType type) =>
    some ("Compiled schema uses unknown type ".toList ++ type.displayed)
  | .faulty _ => none

end ValidationFailure

namespace Issue

/-- Where in the value the issue lies. -/
def place (i : Issue) : String := ValidationFailure.joined "." i.path

def keywordName (i : Issue) : String := i.keyword.getD "None"

def text (i : Issue) : Text := i.place.toList ++ ": ".toList ++ i.message

def pathLe : List String → List String → Bool
  | [], _ => true
  | _ :: _, [] => false
  | s :: ss, t :: ts => if s == t then pathLe ss ts else s < t

/-- In the order of the paths; issues at one place keep their order. -/
def sorted (is : List Issue) : List Issue := is.mergeSort fun i j => pathLe i.path j.path

end Issue

def checkSchema (schema : Value) : Except ValidationFailure Unit :=
  let findings := Schema.check ⟨Metaschema.schema, true⟩ Metaschema.schema schema
  match findings.issues, findings.fault with
  | i :: _, _ => .error (.invalid i)
  | [], some f => .error (.faulty f)
  | [], none => .ok ()

/-- The issues with a value, in the order of their places. The schema itself is checked first. -/
def validate (schema v : Value) : Except ValidationFailure (List Issue) := do
  checkSchema schema
  let findings := Schema.check ⟨schema, false⟩ schema v
  match findings.fault with
  | some f => .error (.faulty f)
  | none => return Issue.sorted findings.issues

end ModelSchema
