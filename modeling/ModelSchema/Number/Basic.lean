import ModelSchema.Number.Numeral

namespace ModelSchema

/-- Integers without bound, and doubles. -/
inductive Number where
  | int (n : Int)
  | float (x : Double)
  deriving DecidableEq, Repr

namespace Number

/-- The most digits that an integer numeral may have. -/
def maxDigits : Nat := 4300

/-- Why a text is not read as a number. -/
inductive Fault where
  | tooManyDigits
  | notANumber
  deriving DecidableEq, Repr

/-- A numeral, perhaps with a newline after it. -/
def isNumeral (t : Text) : Bool := (Numeral.read? t.dropFinalNewline).isSome

/-- An integer numeral, perhaps with a newline after it. -/
def integer? (t : Text) : Option Numeral :=
  (Numeral.read? t.dropFinalNewline).filter Numeral.isInteger

def ofIntegerNumeral (n : Numeral) : Except Fault Int :=
  if maxDigits < n.whole.length then .error .tooManyDigits else .ok n.toInt

/-- An integer for an integer numeral, else a double. -/
def parse (t : Text) : Except Fault Number :=
  match integer? t with
  | some n => (ofIntegerNumeral n).map .int
  | none => match Double.parse? t with
    | some x => .ok (.float x)
    | none => .error .notANumber

/-- An integer numeral with blanks around it and underscores between its digits. -/
def looseInteger? (t : Text) : Option Int :=
  match ((Double.ungroup? false (Text.trim Double.isPadding t)).bind Numeral.read?).filter
      Numeral.isInteger with
  | none => none
  | some n => (ofIntegerNumeral n).toOption

/-- A place on the line of numbers, with its two ends. -/
inductive Place where
  | bottom
  | rational (num : Int) (den : Nat)
  | top

def place? : Number → Option Place
  | .int n => some (.rational n 1)
  | .float (.infinite negative) => some (if negative then .bottom else .top)
  | .float x => x.ratio?.map fun r => .rational r.1 r.2

def Place.compare : Place → Place → Ordering
  | .rational a b, .rational c d => Ord.compare (a * d) (c * b)
  | .bottom, .bottom | .top, .top => .eq
  | .bottom, _ | _, .top => .lt
  | .top, _ | _, .bottom => .gt

/-- The order of the values, so an integer and a double can be equal; not-a-number compares with
nothing. -/
def compare? (x y : Number) : Option Ordering := do
  return (← x.place?).compare (← y.place?)

def eq (x y : Number) : Bool := x.compare? y == some .eq

def lt (x y : Number) : Bool := x.compare? y == some .lt

def le (x y : Number) : Bool := x.lt y || x.eq y

def toDouble : Number → Double
  | .int n => .ofInt n
  | .float x => x

/-- Has an integral value. -/
def isIntegral : Number → Bool
  | .int _ => true
  | .float x => x.isIntegral

end Number

end ModelSchema
