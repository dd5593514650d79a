import ModelSchema.Text.Basic

namespace ModelSchema.Text.Utf8

/-- Reads `n` more bytes of a character into `code`. The next one lies between `low` and `high`,
those after it between `0x80` and `0xbf`. Gives the code, unless invalid, and what follows. -/
def continued (low high : Nat) : Nat → Nat → List UInt8 → Option Nat × List UInt8
  | 0, code, bytes => (some code, bytes)
  | _ + 1, _, [] => (none, [])
  | n + 1, code, b :: bytes =>
    if low ≤ b.toNat ∧ b.toNat ≤ high then
      continued 0x80 0xbf n (code * 64 + (b.toNat - 0x80)) bytes
    else (none, b :: bytes)

/-- The code of the character that starts with the byte `b`, unless invalid, and what follows. -/
def readCode (b : Nat) (bytes : List UInt8) : Option Nat × List UInt8 :=
  if b < 0x80 then (some b, bytes)
  else if b < 0xc2 then (none, bytes)
  else if b < 0xe0 then continued 0x80 0xbf 1 (b - 0xc0) bytes
  else if b < 0xf0 then
    continued (if b = 0xe0 then 0xa0 else 0x80) (if b = 0xed then 0x9f else 0xbf) 2 (b - 0xe0) bytes
  else if b < 0xf5 then
    continued (if b = 0xf0 then 0x90 else 0x80) (if b = 0xf4 then 0x8f else 0xbf) 3 (b - 0xf0) bytes
  else (none, bytes)

/-- The characters of a sequence of bytes, with `none` for each invalid part, in `fuel` steps. -/
def readFrom : Nat → List UInt8 → List (Option Char)
  | 0, _ => []
  | _, [] => []
  | fuel + 1, b :: bytes =>
    let (code, rest) := readCode b.toNat bytes
    code.map Char.ofNat :: readFrom fuel rest

/-- Each step uses up a byte, so the length is enough. -/
def read (bytes : List UInt8) : List (Option Char) := readFrom bytes.length bytes

/-- The text, if all bytes are valid. -/
def decode? (bytes : List UInt8) : Option Text := (read bytes).mapM id

/-- The text, with a replacement character for each invalid part. -/
def decodeLossy (bytes : List UInt8) : Text := (read bytes).map (·.getD (Char.ofNat 0xfffd))

end ModelSchema.Text.Utf8
