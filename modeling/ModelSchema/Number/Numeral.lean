import ModelSchema.Number.Double
import ModelSchema.Text.Blank
import ModelSchema.Text.Digit

namespace ModelSchema

/-- A sign, digits of any script with a point among, before or after them, and an exponent. A part
is `none` when its mark (point, exponent letter) is absent. -/
structure Numeral where
  negative : Bool
  whole : Text
  fraction : Option Text
  exponent : Option (Bool × Text)
  deriving DecidableEq

namespace Numeral

open Text (isDigit digitsValue)

/-- Whether a minus stands in front, and what follows the sign. -/
def readSign : Text → Bool × Text
  | '+' :: t => (false, t)
  | '-' :: t => (true, t)
  | t => (false, t)

def readExponent? : Text → Option (Option (Bool × Text))
  | [] => some none
  | c :: t =>
    let (negative, digits) := readSign t
    if (c == 'e' || c == 'E') && !digits.isEmpty && digits.all isDigit then
      some (some (negative, digits))
    else none

def readUnsigned? (negative : Bool) (t : Text) : Option Numeral :=
  let whole := t.takeWhile isDigit
  match t.dropWhile isDigit with
  | '.' :: rest =>
    let fraction := rest.takeWhile isDigit
    if whole.isEmpty && fraction.isEmpty then none
    else (readExponent? (rest.dropWhile isDigit)).map (⟨negative, whole, some fraction, ·⟩)
  | rest =>
    if whole.isEmpty then none
    else (readExponent? rest).map (⟨negative, whole, none, ·⟩)

def read? (t : Text) : Option Numeral :=
  let (negative, rest) := readSign t
  readUnsigned? negative rest

def isInteger (n : Numeral) : Bool := n.fraction.isNone && n.exponent.isNone

def signed (negative : Bool) (n : Nat) : Int := if negative then -(n : Int) else n

/-- The whole part as a signed integer. -/
def toInt (n : Numeral) : Int := signed n.negative (digitsValue 0 n.whole)

def toDouble (n : Numeral) : Double :=
  let fraction := n.fraction.getD []
  let exponent := match n.exponent with
    | some (negative, digits) => signed negative (digitsValue 0 digits)
    | none => 0
  Double.ofDecimal n.negative (digitsValue 0 (n.whole ++ fraction)) (exponent - fraction.length)

end Numeral

namespace Double

/-- The text without the underscores that stand between two digits; refused if one stands
elsewhere. `before` tells whether the last character was a digit. -/
def ungroup? (before : Bool) : Text → Option Text
  | [] => some []
  | '_' :: c :: t =>
    if before && Text.isDigit c then (ungroup? true t).map (c :: ·) else none
  | c :: t => if c == '_' then none else (ungroup? (Text.isDigit c) t).map (c :: ·)

/-- The blanks allowed around a double: all but the information separators. -/
def isPadding (c : Char) : Bool := Text.isBlank c && !(decide (0x1c ≤ c.toNat ∧ c.toNat ≤ 0x1f))

/-- The double named by a word, whatever the case of its letters. -/
def named? (negative : Bool) (word : Text) : Option Double :=
  match Text.str (word.map Char.toLower) with
  | "inf" | "infinity" => some (.infinite negative)
  | "nan" => some .nan
  | _ => none

/-- Reads a numeral or the name of a special value, with blanks around it and underscores between
its digits. -/
def parse? (t : Text) : Option Double :=
  let body := Text.trim isPadding t
  let (negative, word) := Numeral.readSign body
  match named? negative word with
  | some x => some x
  | none => ((ungroup? false body).bind Numeral.read?).map Numeral.toDouble

end Double

end ModelSchema
