import ModelSchema.Text.Range

namespace ModelSchema.Text

/-- Spaces of every script, tabs, line and paragraph ends, and the four information separators. -/
def blankRanges : Ranges :=
  [(0x9, 0xd), (0x1c, 0x20), (0x85, 0x85), (0xa0, 0xa0), (0x1680, 0x1680), (0x2000, 0x200a),
    (0x2028, 0x2029), (0x202f, 0x202f), (0x205f, 0x205f), (0x3000, 0x3000)]

def isBlank (c : Char) : Bool := blankRanges.has c

/-- The text without the characters of `p` at its two ends. -/
def trim (p : Char → Bool) (t : Text) : Text :=
  ((t.dropWhile p).reverse.dropWhile p).reverse

/-- The text without blanks at its two ends. -/
def strip (t : Text) : Text := trim isBlank t

/-- Nothing but blanks. -/
def isBlankText (t : Text) : Bool := t.all isBlank

end ModelSchema.Text
