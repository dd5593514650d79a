import ModelSchema.Number.Basic

namespace ModelSchema.Number

/-- The text without a plus sign in front, which no minus sign may follow. -/
def dropPlus? : Text → Option Text
  | '+' :: '-' :: _ => none
  | '+' :: t => some t
  | t => some t

/-- The text from the first digit that counts: the last of the zeros in front if a point or the end
follows them. Underscores may stand among the zeros; `last` is the character before the text. -/
def dropZerosAfter? (last : Char) : Text → Option Text
  | [] => some [last]
  | c :: t =>
    if c == '0' || c == '_' then dropZerosAfter? c t
    else if c.isDigit then some (c :: t)
    else if c == '.' then some (last :: c :: t)
    else none

/-- The text without the zeros in front of a number, which begins with a digit or a minus sign. -/
def dropZeros? : Text → Option Text
  | [] => none
  | c :: t =>
    if c == '0' then dropZerosAfter? c t
    else if c == '-' || c.isDigit then some (c :: t)
    else none

/-- The text without a point that only zeros follow. -/
def dropZeroFraction (t : Text) : Text :=
  match Text.cut? '.' t with
  | some (whole, fraction) => if !fraction.isEmpty && fraction.all (· == '0') then whole else t
  | none => t

/-- The text without its underscores, if something stands before and after each. -/
def dropGrouping (t : Text) : Text :=
  let groups := Text.splitOn '_' t
  if groups.all fun g => !g.isEmpty then groups.flatten else t

/-- The number with these digits. Only zero itself begins with a zero. -/
def digits? (t : Text) : Option Nat :=
  if t.isEmpty || !t.all Char.isDigit || maxDigits < t.length then none
  else if t.head? == some '0' && t != ['0'] then none
  else some (Text.digitsValue 0 t)

/-- The integer that is written with digits and perhaps a minus sign. -/
def plain? : Text → Option Int
  | '-' :: t => (digits? t).map fun n => -(n : Int)
  | t => (digits? t).map fun n => (n : Int)

/-- Reads a whole number. It may have blanks around it, a plus sign or zeros in front, single
underscores between its digits, and a fraction of nothing but zeros. -/
def whole? (t : Text) : Option Int := do
  let t ← dropPlus? (Text.trim Double.isPadding t)
  let t ← dropZeros? t
  plain? (dropGrouping (dropZeroFraction t))

end ModelSchema.Number
