import ModelSchema.Text.Basic

namespace ModelSchema.Text

/-- A set of characters as inclusive ranges of code points. -/
abbrev Ranges := List (Nat × Nat)

def Ranges.has (rs : Ranges) (c : Char) : Bool :=
  rs.any fun r => decide (r.1 ≤ c.toNat) && decide (c.toNat ≤ r.2)

end ModelSchema.Text
