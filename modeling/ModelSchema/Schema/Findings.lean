import ModelSchema.Value.Basic

namespace ModelSchema

/-- A failed check: where in the value, which keyword, and why. A schema that allows nothing has
no keyword. -/
structure Issue where
  path : List String
  keyword : Option String
  message : Text
  deriving DecidableEq, Repr

/-- Why a check cannot go on. -/
inductive SchemaFault where
  | unknownType (type : Value)
  /-- Something other than an object or a switch stands where a schema is needed. -/
  | notASchema
  /-- The value of a keyword cannot be compared, walked through or looked up. -/
  | unusable
  | badPattern
  | danglingReference
  /-- A reference leads to a position that is not a number. -/
  | badPosition
  /-- A quotient is not a number. -/
  | notANumber
  | divisionByZero
  | outOfRange
  | endlessReference

/-- Issues with a value, one after the other, and possibly a fault of the schema, at which the check
ends. -/
structure Findings where
  issues : List Issue
  fault : Option SchemaFault

namespace Findings

def nothing : Findings := ⟨[], none⟩

def faulty (f : SchemaFault) : Findings := ⟨[], some f⟩

def issue (keyword : String) (message : Text) : Findings := ⟨[⟨[], some keyword, message⟩], none⟩

/-- The findings of one check after the other. Nothing comes after a fault. -/
def each {α : Type} (check : α → Findings) : List α → Findings
  | [] => nothing
  | a :: as =>
    let first := check a
    match first.fault with
    | some _ => first
    | none =>
      let rest := each check as
      ⟨first.issues ++ rest.issues, rest.fault⟩

/-- The findings about a part of the value, seen from the whole. -/
def under (step : String) (f : Findings) : Findings :=
  ⟨f.issues.map fun i => { i with path := step :: i.path }, f.fault⟩

/-- An issue settles that a value is not valid, even if a fault comes after it. -/
def valid (f : Findings) : Except SchemaFault Bool :=
  match f.issues, f.fault with
  | [], none => .ok true
  | [], some fault => .error fault
  | _ :: _, _ => .ok false

/-- Whether there is no issue, once the check has come to its end. -/
def clean (f : Findings) : Except SchemaFault Bool :=
  match f.fault with
  | some fault => .error fault
  | none => .ok f.issues.isEmpty

/-- Findings that depend on a step that can find a fault itself. -/
def ofExcept (r : Except SchemaFault Findings) : Findings :=
  match r with
  | .ok f => f
  | .error fault => faulty fault

end Findings

end ModelSchema
