import ModelSchema.Text.Hex
import ModelSchema.Text.Printable

namespace ModelSchema.Text

def apostrophe : Char := Char.ofNat 39

def doubleQuote : Char := Char.ofNat 34

def escapeUnprintable (n : Nat) : Text :=
  if n < 0x100 then '\\' :: 'x' :: hex 2 n
  else if n < 0x10000 then '\\' :: 'u' :: hex 4 n
  else '\\' :: 'U' :: hex 8 n

def escape (quote c : Char) : Text :=
  if c == '\\' || c == quote then ['\\', c]
  else if c == '\n' then ['\\', 'n']
  else if c == '\r' then ['\\', 'r']
  else if c == '\t' then ['\\', 't']
  else if isPrintable c then [c]
  else escapeUnprintable c.toNat

/-- The quote that encloses a text: an apostrophe, unless the text holds one and no double quote. -/
def quoteFor (t : Text) : Char :=
  if t.contains apostrophe && !t.contains doubleQuote then doubleQuote else apostrophe

/-- A text as messages show it. -/
def quoted (t : Text) : Text :=
  quoteFor t :: t.flatMap (escape (quoteFor t)) ++ [quoteFor t]

end ModelSchema.Text
