import ModelSchema.Text.Quoted
import ModelSchema.Value.Basic

namespace ModelSchema.Literal

/-- The text inside a pair of equal quotes of this kind. -/
def between? (quote : Char) : Text → Option Text
  | [] => none
  | c :: t =>
    match Text.splitLast? t with
    | some (inner, last) => if c == quote && last == quote then some inner else none
    | none => none

/-- The text without the quotes around it, if there are any. -/
def unquote (t : Text) : Text :=
  ((between? Text.doubleQuote t).orElse fun _ => between? Text.apostrophe t).getD t

def numericTypes : List Text := ["number".toList, "integer".toList, "decimal".toList]

/-- Whether a field of this type, where it is known, can hold a number. -/
def allowsNumber : Option Text → Bool
  | none => true
  | some type => numericTypes.contains type

def switch? (t : Text) : Option Bool :=
  if t = "true".toList then some true
  else if t = "false".toList then some false
  else none

/-- The value of a literal for a field of type `hint`: quoted text, a switch, a number where the
type allows one, and otherwise the text itself. -/
def coerce (hint : Option Text) (raw : Text) : Except Number.Fault Value :=
  let t := Text.strip raw
  match between? Text.doubleQuote t with
  | some inner => .ok (.ofText inner)
  | none => match switch? t with
    | some b => .ok (.bool b)
    | none =>
      if Number.isNumeral t && allowsNumber hint then (Number.parse t).map .number
      else .ok (.ofText t)

/-- The members of a list of choices. -/
def choices (raw : Text) : List Text :=
  (Text.splitOn ',' raw).map fun member => unquote (Text.strip member)

end ModelSchema.Literal
