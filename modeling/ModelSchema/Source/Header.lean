import ModelSchema.Event
import ModelSchema.Source.Line

namespace ModelSchema

/-- The first word of a line tells a header from the end of a block and from a statement. -/
inductive LineKind where
  | definition
  | model
  | close
  | statement
  deriving DecidableEq, Repr

namespace LineKind

def of (t : Text) : LineKind :=
  if Text.startsWith "def ".toList t then .definition
  else if Text.startsWith "model ".toList t then .model
  else if Text.startsWith ['\x7d'] t then .close
  else .statement

end LineKind

namespace Header

/-- A word after at least one blank, and what follows it. -/
def nextWord? (t : Text) : Option (Text × Text) :=
  let rest := t.dropWhile Text.isBlank
  let word := rest.takeWhile Text.isWord
  if (t.takeWhile Text.isBlank).isEmpty || word.isEmpty then none
  else some (word, rest.dropWhile Text.isWord)

def shape? (word : Text) : Option Shape :=
  if word = "object".toList then some .object
  else if word = "array".toList then some .array
  else none

/-- `def Name object` or `def Name array`; the rest of the line is free. -/
def definition? (t : Text) : Option (Text × Shape) := do
  let (name, rest) ← nextWord? (← Text.after? "def".toList t)
  let (word, _) ← nextWord? rest
  return (name, ← shape? word)

/-- `model Name`; the rest of the line is free. -/
def model? (t : Text) : Option Text := do
  let (name, _) ← nextWord? (← Text.after? "model".toList t)
  return name

/-- Something other than blanks stands after the first opening brace. -/
def hasBody (t : Text) : Bool :=
  (Text.cut? '\x7b' t).any fun p => !Text.isBlankText p.2

end Header

end ModelSchema
