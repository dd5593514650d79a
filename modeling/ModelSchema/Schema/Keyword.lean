import ModelSchema.Pattern.Reader
import ModelSchema.Schema.Pointer
import ModelSchema.Value.Display
import ModelSchema.Value.Equality

namespace ModelSchema.Keyword

/-- The check of a value against a subschema. -/
abbrev Check := Value → Value → Findings

def isFalse : Value → Bool
  | .bool false => true
  | _ => false

/-- Checks a part of a value. A subschema that allows nothing is reported at the whole. -/
def descend (check : Check) (step : String) (schema v : Value) : Findings :=
  if isFalse schema then check schema v else (check schema v).under step

/-- The things that a keyword lists: items, keys, or the characters of a text. -/
def listed : Value → Except SchemaFault (List Value)
  | .array xs => .ok xs
  | .object fs => .ok (fs.map fun e => .text e.1)
  | .text s => .ok (s.toList.map fun c => .ofText [c])
  | _ => .error .unusable

def entries : Value → Except SchemaFault (Fields Value)
  | .object fs => .ok fs
  | _ => .error .notASchema

def number : Value → Except SchemaFault Number
  | v => match v.number? with
    | some n => .ok n
    | none => .error .unusable

def pattern : Value → Except SchemaFault Pattern
  | .text s => match Pattern.parse? s.toList with
    | some p => .ok p
    | none => .error .badPattern
  | _ => .error .unusable

/-- Whether a value stands for yes. -/
def isTruthy : Value → Bool
  | .null => false
  | .bool b => b
  | .number n => !n.eq (.int 0)
  | .text s => !s.isEmpty
  | .array xs => !xs.isEmpty
  | .object fs => !fs.isEmpty

/-- Whether an object has a key. Arrays and objects are no keys. -/
def hasKey (fs : Fields Value) : Value → Except SchemaFault Bool
  | .text k => .ok (fs.has k)
  | .array _ | .object _ => .error .unusable
  | _ => .ok false

def complain (keyword : String) (v : Value) (text : String) : Findings :=
  .issue keyword (v.displayed ++ ' ' :: text.toList)

def complainOf (keyword : String) (v : Value) (text : String) (limit : Value) : Findings :=
  .issue keyword (v.displayed ++ ' ' :: text.toList ++ ' ' :: limit.displayed)

def displayAll (vs : List Value) : Text := Value.commaSeparated (vs.map Value.displayed)

/-- Whether a value has a type; `none` if there is no such type. -/
def hasType? (v : Value) : String → Option Bool
  | "array" => some (match v with | .array _ => true | _ => false)
  | "boolean" => some (match v with | .bool _ => true | _ => false)
  | "integer" => some (match v with | .number n => n.isIntegral | _ => false)
  | "null" => some (match v with | .null => true | _ => false)
  | "number" => some (match v with | .number _ => true | _ => false)
  | "object" => some (match v with | .object _ => true | _ => false)
  | "string" => some (match v with | .text _ => true | _ => false)
  | _ => none

def hasType (v type : Value) : Except SchemaFault Bool :=
  match type with
  | .text name => match hasType? v name with
    | some b => .ok b
    | none => .error (.unknownType type)
  | .array _ | .object _ => .error .unusable
  | _ => .error (.unknownType type)

/-- Whether a value has one of the types; those after the first that fits are not looked at. -/
def hasOneOf (v : Value) : List Value → Except SchemaFault Bool
  | [] => .ok false
  | type :: types => do if ← hasType v type then return true else hasOneOf v types

def type (x v : Value) : Except SchemaFault Findings := do
  let types ← match x with
    | .text _ => .ok [x]
    | _ => listed x
  if ← hasOneOf v types then return .nothing
  else return .issue "type" (v.displayed ++ " is not of type ".toList ++ displayAll types)

def enum (x v : Value) : Except SchemaFault Findings := do
  if (← listed x).any (·.equal v) then return .nothing
  else return complainOf "enum" v "is not one of" x

def const (x v : Value) : Findings :=
  if v.equal x then .nothing else .issue "const" (x.displayed ++ " was expected".toList)

def bound (keyword : String) (bad : Number → Number → Bool) (text : String) (x v : Value) :
    Except SchemaFault Findings :=
  match v with
  | .number n => do
    if bad n (← number x) then return complainOf keyword v text x else return .nothing
  | _ => .ok .nothing

/-- Whether an exact quotient is integral. -/
def dividesExactly (n d : Number) : Bool :=
  match n.place?, d.place? with
  | some (.rational a b), some (.rational c e) => (a * e) % (b * c) == 0
  | _, _ => false

/-- The double nearest to a number, unless an integer is too large to have one. -/
def nearest (n : Number) : Except SchemaFault Double :=
  match n, n.toDouble with
  | .int _, .infinite _ => .error .outOfRange
  | _, x => .ok x

/-- By a double, the rounded quotient has to be integral; where it is too large for a double, the
exact one. -/
def dividesDouble (n : Number) (d : Double) : Except SchemaFault Bool := do
  let x ← nearest n
  if (Number.float d).eq (.int 0) then .error .divisionByZero
  else match x.div d with
    | .nan => .error .notANumber
    | .infinite _ => if x.isFinite then return dividesExactly n (.float d) else .error .outOfRange
    | q => return q.isIntegral

/-- By an integer, the remainder has to be zero. -/
def dividesInt (n : Number) (d : Int) : Except SchemaFault Bool :=
  if d = 0 then .error .divisionByZero
  else match n with
    | .int a => .ok (a % d == 0)
    | .float _ => do return dividesExactly n (.float (← nearest (.int d)))

def divides (n d : Number) : Except SchemaFault Bool :=
  match d with
  | .float x => dividesDouble n x
  | .int i => dividesInt n i

def multipleOf (x v : Value) : Except SchemaFault Findings :=
  match v with
  | .number n => do
    if ← divides n (← number x) then return .nothing
    else return complainOf "multipleOf" v "is not a multiple of" x
  | _ => .ok .nothing

/-- A size that is too small. -/
def atLeast (keyword text : String) (size : Nat) (x v : Value) : Except SchemaFault Findings := do
  let limit ← number x
  if (Number.int size).lt limit then
    return complain keyword v (if limit.eq (.int 1) then "should be non-empty" else text)
  else return .nothing

/-- A size that is too large. -/
def atMost (keyword text : String) (size : Nat) (x v : Value) : Except SchemaFault Findings := do
  let limit ← number x
  if limit.lt (.int size) then
    return complain keyword v (if limit.eq (.int 0) then "is expected to be empty" else text)
  else return .nothing

def textSize? : Value → Option Nat
  | .text s => some s.length
  | _ => none

def arraySize? : Value → Option Nat
  | .array xs => some xs.length
  | _ => none

def objectSize? : Value → Option Nat
  | .object fs => some fs.length
  | _ => none

def sized (size? : Option Nat) (check : Nat → Except SchemaFault Findings) :
    Except SchemaFault Findings :=
  match size? with
  | some n => check n
  | none => .ok .nothing

def search (x v : Value) : Except SchemaFault Findings :=
  match v with
  | .text s => do
    if (← pattern x).occursIn s.toList then return .nothing
    else return complainOf "pattern" v "does not match" x
  | _ => .ok .nothing

/-- The one format that is looked at: a text that spells a pattern. -/
def format (x v : Value) : Findings :=
  match x, v with
  | .text "regex", .text s =>
    if (Pattern.parse? s.toList).isSome then .nothing
    else complainOf "format" v "is not a" x
  | _, _ => .nothing

def uniqueItems (x v : Value) : Findings :=
  match v with
  | .array xs =>
    if isTruthy x && !Value.distinct xs then complain "uniqueItems" v "has non-unique elements"
    else .nothing
  | _ => .nothing

/-- Checks values from a position on, each against its schema. -/
def checkItems (check : Check) (start : Nat) (pairs : List (Value × Value)) : Findings :=
  .each (fun p => descend check (toString p.2) p.1.1 p.1.2) (pairs.zipIdx start)

/-- One schema for all items, or one for each position. -/
def items (check : Check) (x v : Value) : Findings :=
  match v, x with
  | .array vs, .array schemas => checkItems check 0 (schemas.zip vs)
  | .array vs, _ => checkItems check 0 (vs.map (x, ·))
  | _, _ => .nothing

/-- How a list of unexpected things is spoken of. -/
def unexpected (things : List Value) : Text :=
  displayAll things ++ (if things.length = 1 then " was".toList else " were".toList) ++
    " unexpected)".toList

/-- How many items have a schema of their own. -/
def ownSchemas (schema : Fields Value) : Except SchemaFault Nat :=
  match schema.get? "items" with
  | none => .ok 0
  | some x => do return (← listed x).length

def additionalItems (check : Check) (schema : Fields Value) (x v : Value) :
    Except SchemaFault Findings :=
  match v, schema.get? "items" with
  | .array _, none | .array _, some (.object _) => .ok .nothing
  | .array vs, _ => do
    let n ← ownSchemas schema
    match x with
    | .object _ => return checkItems check n ((vs.drop n).map (x, ·))
    | _ =>
      if !isTruthy x && n < vs.length then
        return .issue "additionalItems"
          ("Additional items are not allowed (".toList ++ unexpected (vs.drop n))
      else return .nothing
  | _, _ => .ok .nothing

def anyValid (check : Check) (schema : Value) : List Value → Except SchemaFault Bool
  | [] => .ok false
  | v :: vs => do if ← (check schema v).valid then return true else anyValid check schema vs

def contains (check : Check) (x v : Value) : Except SchemaFault Findings :=
  match v with
  | .array vs => do
    if ← anyValid check x vs then return .nothing
    else
      let text := "None of ".toList ++ v.displayed ++ " are valid under the given schema".toList
      return .issue "contains" text
  | _ => .ok .nothing

def properties (check : Check) (x v : Value) : Except SchemaFault Findings :=
  match v with
  | .object fs => do
    return .each (fun e => match Fields.get? e.1 fs with
      | some w => descend check e.1 e.2 w
      | none => .nothing) (← entries x)
  | _ => .ok .nothing

def requires (fs : Fields Value) (name : Value) : Except SchemaFault Findings := do
  if ← hasKey fs name then return .nothing
  else return complain "required" name "is a required property"

def required (x v : Value) : Except SchemaFault Findings :=
  match v with
  | .object fs => do return .each (fun name => .ofExcept (requires fs name)) (← listed x)
  | _ => .ok .nothing

/-- Checks an entry of the value if the pattern of a schema occurs in its key. -/
def underPattern (check : Check) (schema entry : String × Value) : Findings := .ofExcept do
  if (← pattern (.text schema.1)).occursIn entry.1.toList then
    return descend check entry.1 schema.2 entry.2
  else return .nothing

def patternProperties (check : Check) (x v : Value) : Except SchemaFault Findings :=
  match v with
  | .object fs => do
    return .each (fun e => .each (underPattern check e) fs) (← entries x)
  | _ => .ok .nothing

/-- Whether one of the patterns occurs in a key. -/
def matchesOne (key : String) : List String → Except SchemaFault Bool
  | [] => .ok false
  | p :: ps => do
    if (← pattern (.text p)).occursIn key.toList then return true else matchesOne key ps

/-- The entries that neither `properties` nor `patternProperties` speak of. -/
def additional (schema : Fields Value) (fs : Fields Value) :
    Except SchemaFault (Fields Value) := do
  let known : Fields Value ← (schema.get? "properties").elim (.ok []) entries
  let patterns : Fields Value ← (schema.get? "patternProperties").elim (.ok []) entries
  fs.filterM fun f => do
    if known.has f.1 then return false
    else return !(← matchesOne f.1 patterns.keys)

def sortedTexts (ts : List String) : List Value :=
  (ts.mergeSort (fun s t => s < t || s == t)).map .text

/-- What is said of entries that no schema speaks of. -/
def additionalText (schema : Fields Value) (names : List String) : Text :=
  match (schema.get? "patternProperties").bind Value.fields? with
  | none => "Additional properties are not allowed (".toList ++ unexpected (sortedTexts names)
  | some patterns =>
    displayAll (sortedTexts names) ++ (if names.length = 1 then " does" else " do").toList ++
      " not match any of the regexes: ".toList ++ displayAll (sortedTexts patterns.keys)

def additionalProperties (check : Check) (schema : Fields Value) (x v : Value) :
    Except SchemaFault Findings :=
  match v with
  | .object fs => do
    let extras ← additional schema fs
    match x with
    | .object _ => return .each (fun e => descend check e.1 x e.2) extras
    | _ =>
      if isTruthy x || extras.isEmpty then return .nothing
      else return .issue "additionalProperties" (additionalText schema extras.keys)
  | _ => .ok .nothing

def propertyNames (check : Check) (x v : Value) : Findings :=
  match v with
  | .object fs => .each (fun e => check x (.text e.1)) fs
  | _ => .nothing

def dependsOn (fs : Fields Value) (key : String) (name : Value) : Except SchemaFault Findings := do
  if ← hasKey fs name then return .nothing
  else return complainOf "dependencies" name "is a dependency of" (.text key)

/-- What a key entails: further keys, or a schema for the whole object. -/
def dependency (check : Check) (fs : Fields Value) (v : Value) (e : String × Value) : Findings :=
  if fs.has e.1 then
    match e.2 with
    | .array names => .each (fun name => .ofExcept (dependsOn fs e.1 name)) names
    | schema => check schema v
  else .nothing

def dependencies (check : Check) (x v : Value) : Except SchemaFault Findings :=
  match v with
  | .object fs => do
    return .each (dependency check fs v) (← entries x)
  | _ => .ok .nothing

def allOf (check : Check) (x v : Value) : Except SchemaFault Findings := do
  return .each (fun schema => check schema v) (← listed x)

/-- The first schema that a value satisfies, and the schemas after it. -/
def firstClean? (check : Check) (v : Value) :
    List Value → Except SchemaFault (Option (Value × List Value))
  | [] => .ok none
  | schema :: schemas => do
    if ← (check schema v).clean then return some (schema, schemas)
    else firstClean? check v schemas

def anyOf (check : Check) (x v : Value) : Except SchemaFault Findings := do
  match ← firstClean? check v (← listed x) with
  | some _ => return .nothing
  | none => return complain "anyOf" v "is not valid under any of the given schemas"

def oneOf (check : Check) (x v : Value) : Except SchemaFault Findings := do
  match ← firstClean? check v (← listed x) with
  | none => return complain "oneOf" v "is not valid under any of the given schemas"
  | some (first, rest) =>
    let more ← rest.filterM fun schema => (check schema v).valid
    if more.isEmpty then return .nothing
    else
      let text := v.displayed ++ " is valid under each of ".toList ++ displayAll (more ++ [first])
      return .issue "oneOf" text

def negation (check : Check) (x v : Value) : Except SchemaFault Findings := do
  if ← (check x v).valid then return complainOf "not" v "should not be valid under" x
  else return .nothing

/-- The schema under a key, if it is there, is checked. -/
def branch (check : Check) (schema : Fields Value) (key : String) (v : Value) : Findings :=
  match schema.get? key with
  | some sub => check sub v
  | none => .nothing

def condition (check : Check) (schema : Fields Value) (x v : Value) :
    Except SchemaFault Findings := do
  return branch check schema (if ← (check x v).valid then "then" else "else") v

/-- The check of one keyword with the value `x` in a schema. It is silent about values of a kind
that it is not meant for, and a keyword without a meaning is silent altogether. -/
def run (formats : Bool) (check : Check) (schema : Fields Value) (v : Value) (keyword : String)
    (x : Value) : Except SchemaFault Findings :=
  match keyword with
  | "type" => type x v
  | "enum" => enum x v
  | "const" => .ok (const x v)
  | "minimum" => bound keyword Number.lt "is less than the minimum of" x v
  | "maximum" => bound keyword (fun a b => b.lt a) "is greater than the maximum of" x v
  | "exclusiveMinimum" => bound keyword Number.le "is less than or equal to the minimum of" x v
  | "exclusiveMaximum" =>
    bound keyword (fun a b => b.le a) "is greater than or equal to the maximum of" x v
  | "multipleOf" => multipleOf x v
  | "minLength" => sized (textSize? v) (atLeast keyword "is too short" · x v)
  | "maxLength" => sized (textSize? v) (atMost keyword "is too long" · x v)
  | "minItems" => sized (arraySize? v) (atLeast keyword "is too short" · x v)
  | "maxItems" => sized (arraySize? v) (atMost keyword "is too long" · x v)
  | "minProperties" =>
    sized (objectSize? v) (atLeast keyword "does not have enough properties" · x v)
  | "maxProperties" => sized (objectSize? v) (atMost keyword "has too many properties" · x v)
  | "pattern" => search x v
  | "format" => .ok (if formats then format x v else .nothing)
  | "uniqueItems" => .ok (uniqueItems x v)
  | "items" => .ok (items check x v)
  | "additionalItems" => additionalItems check schema x v
  | "contains" => contains check x v
  | "properties" => properties check x v
  | "required" => required x v
  | "patternProperties" => patternProperties check x v
  | "additionalProperties" => additionalProperties check schema x v
  | "propertyNames" => .ok (propertyNames check x v)
  | "dependencies" => dependencies check x v
  | "allOf" => allOf check x v
  | "anyOf" => anyOf check x v
  | "oneOf" => oneOf check x v
  | "not" => negation check x v
  | "if" => condition check schema x v
  | _ => .ok .nothing

end ModelSchema.Keyword
