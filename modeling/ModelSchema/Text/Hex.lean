import ModelSchema.Text.Basic

namespace ModelSchema.Text

/-- `n` in base sixteen with `width` small digits. -/
def hex (width n : Nat) : Text :=
  match width with
  | 0 => []
  | w + 1 => hex w (n / 16) ++ [Nat.digitChar (n % 16)]

def hexDigit? (c : Char) : Option Nat :=
  if c.isDigit then some (c.toNat - 48)
  else if 'a' ≤ c ∧ c ≤ 'f' then some (c.toNat - 87)
  else if 'A' ≤ c ∧ c ≤ 'F' then some (c.toNat - 55)
  else none

/-- The number that hexadecimal digits spell. -/
def hexValue? (t : Text) : Option Nat :=
  t.foldlM (fun n c => (hexDigit? c).map (16 * n + ·)) 0

end ModelSchema.Text
