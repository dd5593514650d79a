
namespace ModelSchema

/-- The categories form a tree; an error belongs to its own category and to all above it. -/
inductive Category where
  | any
  | parse
  | expressionFormat
  | missingArgument
  | structural
  | configuration
  | invalidSchema
  deriving DecidableEq, Repr

namespace Category

/-- A category and all above it, the narrowest first. -/
def lineage : Category → List Category
  | .any => [.any]
  | .parse => [.parse, .any]
  | .expressionFormat => [.expressionFormat, .parse, .any]
  | .missingArgument => [.missingArgument, .parse, .any]
  | .structural => [.structural, .parse, .any]
  | .configuration => [.configuration, .any]
  | .invalidSchema => [.invalidSchema, .any]

end Category

end ModelSchema
