import ModelSchema.Text.Basic

namespace ModelSchema

/-- An annotation `@name` or `@name(argument)` in a statement. Without parentheses it has no
argument; `@name()` has an empty one. -/
structure Tag where
  name : Text
  argument : Option Text
  column : Int
  deriving DecidableEq, Repr

namespace Tag

/-- The tag as written. -/
def raw (t : Tag) : Text :=
  '@' :: t.name ++ match t.argument with
    | none => []
    | some a => '(' :: a ++ [')']

end Tag

end ModelSchema
