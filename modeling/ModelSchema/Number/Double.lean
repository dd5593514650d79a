
namespace ModelSchema

/-- The numbers `± significand · 2 ^ exponent` with a significand below `2 ^ 53` and an exponent
from `-1074` to `971`, two infinities, and not-a-number. -/
inductive Double where
  | finite (negative : Bool) (significand : Nat) (exponent : Int)
  | infinite (negative : Bool)
  | nan
  deriving DecidableEq, Repr

namespace Double

/-- The quotient rounded to the nearest natural number, and to the even one half way. -/
def roundDiv (num den : Nat) : Nat :=
  let q := num / den
  let r := num % den
  if 2 * r < den then q else if den < 2 * r then q + 1 else q + q % 2

/-- `num / den · 2 ^ (-e)` as a fraction. -/
def scale (num den : Nat) (e : Int) : Nat × Nat :=
  if e < 0 then (num * Nat.pow 2 e.natAbs, den) else (num, den * Nat.pow 2 e.natAbs)

/-- The `k` with `2 ^ k ≤ num / den < 2 ^ (k + 1)`, for positive `num` and `den`. -/
def log2Ratio (num den : Nat) : Int :=
  let k : Int := num.log2 - den.log2
  let (a, b) := scale num den k
  if b ≤ a then k else k - 1

def zero (negative : Bool) : Double := .finite negative 0 (-1074)

/-- The double with this significand and exponent, after a rounding that may have reached
`2 ^ 53`. -/
def normal (negative : Bool) (significand : Nat) (exponent : Int) : Double :=
  if significand = Nat.pow 2 53 then
    if exponent < 971 then .finite negative (Nat.pow 2 52) (exponent + 1) else .infinite negative
  else if 971 < exponent then .infinite negative
  else .finite negative significand exponent

/-- The double nearest to `± num / den`, and the one with the even significand half way between
two. -/
def ofRatio (negative : Bool) (num den : Nat) : Double :=
  if num = 0 then zero negative
  else
    let e := max (log2Ratio num den - 52) (-1074)
    let (a, b) := scale num den e
    normal negative (roundDiv a b) e

/-- The double nearest to `± digits · 10 ^ exponent`. Powers of ten far outside the range are not
worked out. -/
def ofDecimal (negative : Bool) (digits : Nat) (exponent : Int) : Double :=
  if digits = 0 then zero negative
  else if 310 < exponent then .infinite negative
  else if 0 ≤ exponent then ofRatio negative (digits * Nat.pow 10 exponent.natAbs) 1
  else if (digits.log2 / 3 + 1 : Int) + exponent < -330 then zero negative
  else ofRatio negative digits (Nat.pow 10 exponent.natAbs)

def ofInt (n : Int) : Double := ofRatio (n < 0) n.natAbs 1

/-- A finite double as a signed numerator over a positive denominator. -/
def ratio? : Double → Option (Int × Nat)
  | .finite negative m e =>
    let (a, b) := scale m 1 (-e)
    some (if negative then -(a : Int) else a, b)
  | _ => none

def isFinite (x : Double) : Bool := x.ratio?.isSome

/-- Has an integral value. -/
def isIntegral (x : Double) : Bool :=
  match x.ratio? with
  | some (a, b) => a % b == 0
  | none => false

/-- The quotient of two doubles, the second not zero. -/
def div (x y : Double) : Double :=
  match x, y with
  | .nan, _ | _, .nan | .infinite _, .infinite _ => .nan
  | .infinite s, .finite t _ _ => .infinite (s != t)
  | .finite s _ _, .infinite t => zero (s != t)
  | .finite s m e, .finite t n f =>
    let (a, b) := scale m n (f - e)
    ofRatio (s != t) a b

end Double

end ModelSchema
