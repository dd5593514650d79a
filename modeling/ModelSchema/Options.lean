
namespace ModelSchema

/-- Which default values that look like numbers become numbers: those of numeric fields, or
all. -/
inductive Coercion where
  | typed
  | legacy
  deriving DecidableEq, Repr

structure Options where
  coercion : Coercion := .typed
  /-- A condition fails when a property on its path is absent. -/
  requireConditionProperties : Bool := false
  deriving DecidableEq, Repr

end ModelSchema
