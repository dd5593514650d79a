import ModelSchema.Error.Cause
import ModelSchema.Text.Blank
import ModelSchema.Value.Basic

namespace ModelSchema

/-- Two arguments, divided at the first comma and trimmed; the second is empty if absent. -/
def twoArguments (t : Text) : Text × Text :=
  match Text.cut? ',' t with
  | some (a, b) => (Text.strip a, Text.strip b)
  | none => (Text.strip t, [])

/-- The arguments of the call that an expression consists of; they hold no newline. -/
def callArguments? (head : String) (expression : Text) : Option (Text × Text) :=
  ((Text.enclosed? head.toList (Text.strip expression)).filter (!·.contains '\n')).map twoArguments

/-- The order of a collection, `@sort(name,dir)`. -/
structure SortRule where
  name : Text
  dir : Text
  deriving DecidableEq, Repr

namespace SortRule

def compile (expression : Text) : Except Failure SortRule :=
  match callArguments? "@sort(" expression with
  | some (name, dir) => .ok ⟨name, if dir.isEmpty then "asc".toList else dir⟩
  | none => .error (.because (.sort expression))

def toValue (r : SortRule) : Value :=
  .object [("name", .ofText r.name), ("dir", .ofText r.dir)]

end SortRule

/-- The label of a record, `@breadcrumb(name,suffix)`. -/
structure BreadcrumbRule where
  name : Text
  suffix : Text
  deriving DecidableEq, Repr

namespace BreadcrumbRule

def compile (expression : Text) : Except Failure BreadcrumbRule :=
  match callArguments? "@breadcrumb(" expression with
  | some (name, suffix) => .ok ⟨name, suffix⟩
  | none => .error (.because (.breadcrumb expression))

def toValue (r : BreadcrumbRule) : Value :=
  .object [("name", .ofText r.name), ("suffix", .ofText r.suffix)]

end BreadcrumbRule

end ModelSchema
