import ModelSchema.Number.Basic
import ModelSchema.Value.Fields

namespace ModelSchema

/-- The data that schemas are made of and that they describe. -/
inductive Value where
  | null
  | bool (b : Bool)
  | number (n : Number)
  | text (s : String)
  | array (items : List Value)
  | object (fields : List (String × Value))

namespace Value

def int (n : Int) : Value := .number (.int n)

/-- The text with these characters. -/
def ofText (t : Text) : Value := .text (Text.str t)

/-- The array of these texts. -/
def texts (ts : List String) : Value := .array (ts.map .text)

/-- A switch counts as one or zero where a number is wanted. -/
def number? : Value → Option Number
  | .number n => some n
  | .bool b => some (.int (if b then 1 else 0))
  | _ => none

def fields? : Value → Option (Fields Value)
  | .object fs => some fs
  | _ => none

mutual

/-- How deep arrays and objects are nested. -/
def depth : Value → Nat
  | .array xs => depthItems xs + 1
  | .object fs => depthFields fs + 1
  | _ => 0

def depthItems : List Value → Nat
  | [] => 0
  | v :: vs => max (depth v) (depthItems vs)

def depthFields : List (String × Value) → Nat
  | [] => 0
  | (_, v) :: fs => max (depth v) (depthFields fs)

end

mutual

/-- How many values a value is made of, itself included. -/
def size : Value → Nat
  | .array xs => sizeItems xs + 1
  | .object fs => sizeFields fs + 1
  | _ => 1

def sizeItems : List Value → Nat
  | [] => 0
  | v :: vs => size v + sizeItems vs

def sizeFields : List (String × Value) → Nat
  | [] => 0
  | (_, v) :: fs => size v + sizeFields fs

end

end Value

end ModelSchema
