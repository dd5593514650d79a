import ModelSchema.Number.Double
import ModelSchema.Text.Basic

namespace ModelSchema.Double

/-- A decimal `digits · 10 ^ exponent`. -/
structure Decimal where
  digits : Nat
  exponent : Int

def Decimal.toDouble (d : Decimal) : Double := ofDecimal false d.digits d.exponent

/-- `num / den · 10 ^ (-e)` as a fraction. -/
def scaleTen (num den : Nat) (e : Int) : Nat × Nat :=
  if e < 0 then (num * Nat.pow 10 e.natAbs, den) else (num, den * Nat.pow 10 e.natAbs)

/-- The least `p` not below `start` with `num / den < 10 ^ p`, looked for in `fuel` steps. -/
def decimalWidth (num den : Nat) (start : Int) : Nat → Int
  | 0 => start
  | fuel + 1 =>
    let (a, b) := scaleTen num den start
    if a < b then start else decimalWidth num den (start + 1) fuel

/-- The decimal with `n` digits nearest to `num / den < 10 ^ width` among those that read back as
`x`. -/
def readingBack? (x : Double) (num den : Nat) (width : Int) (n : Nat) : Option Decimal :=
  let e := width - n
  let (a, b) := scaleTen num den e
  let below : Decimal := ⟨a / b, e⟩
  let above : Decimal := ⟨a / b + 1, e⟩
  let near := if roundDiv a b = a / b then [below, above] else [above, below]
  near.find? fun d => d.toDouble = x

/-- The shortest decimal of a positive double `m · 2 ^ e`. Seventeen digits always read back. -/
def shortest (m : Nat) (e : Int) : Decimal :=
  let (num, den) := scale m 1 (-e)
  -- 1233 / 4096 is just below the logarithm of two to base ten
  let width := decimalWidth num den ((log2Ratio num den * 1233).fdiv 4096 - 1) 4
  let x := Double.finite false m e
  ((List.range 17).findSome? fun i => readingBack? x num den width (i + 1)).getD ⟨0, 0⟩

/-- The texts that a layout of numbers leaves open. -/
structure Layout where
  infinity : Text
  notANumber : Text

/-- Decimal digits without zeros at the end. -/
def significantDigits (n : Nat) : Text :=
  ((Text.ofNat n).reverse.dropWhile (· == '0')).reverse

def exponentText (e : Int) : Text :=
  let digits := Text.ofNat e.natAbs
  (if e < 0 then '-' else '+') :: (List.replicate (2 - digits.length) '0' ++ digits)

/-- The digits `ds`, the first of which counts `10 ^ e`: positional for `e` from `-4` to `15`, else
scientific with at least two digits in a signed exponent. -/
def layDigits (ds : Text) (e : Int) : Text :=
  if e < -4 ∨ 16 ≤ e then
    match ds with
    | [] => []
    | [d] => d :: 'e' :: exponentText e
    | d :: rest => d :: '.' :: rest ++ 'e' :: exponentText e
  else if e < 0 then
    '0' :: '.' :: List.replicate (e.natAbs - 1) '0' ++ ds
  else
    let whole := ds.take (e.natAbs + 1)
    let rest := ds.drop (e.natAbs + 1)
    whole ++ List.replicate (e.natAbs + 1 - whole.length) '0' ++
      '.' :: (if rest.isEmpty then ['0'] else rest)

def magnitudeText (m : Nat) (e : Int) : Text :=
  if m = 0 then ['0', '.', '0']
  else
    let d := shortest m e
    let all := Text.ofNat d.digits
    layDigits (significantDigits d.digits) (d.exponent + all.length - 1)

def write (l : Layout) : Double → Text
  | .finite negative m e => if negative then '-' :: magnitudeText m e else magnitudeText m e
  | .infinite negative => if negative then '-' :: l.infinity else l.infinity
  | .nan => l.notANumber

end ModelSchema.Double
