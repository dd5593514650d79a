import ModelSchema.Error.Cause

namespace ModelSchema

/-- The tags of a text on a line of a source, whose first character stands at column
`offset + 1`. A tag without an end is reported at its `@`. -/
def Tag.scanAt (source : String) (line offset : Int) (t : Text) : Except Failure (List Tag) :=
  (Tag.scan offset t).mapError fun u =>
    .located ⟨source, line, u.column, none⟩ (.unterminated u.name)

/-- The tags of a text that stands in no source. -/
def Tag.scanPart (t : Text) : Except Failure (List Tag) := Tag.scanAt "<string>" 0 0 t

end ModelSchema
