import ModelSchema.Text.Hex
import ModelSchema.Text.Quoted
import ModelSchema.Value.Basic

namespace ModelSchema.Toml

/-- Why a text is not read. -/
inductive Fault where
  | malformed
  | tooManyDigits
  deriving DecidableEq, Repr

/-- A reader gives what it has read and what follows. -/
abbrev Reader (α : Type) := Text → Option (α × Text)

def isSpace (c : Char) : Bool := c == ' ' || c == '\t'

def isSpaceOrNewline (c : Char) : Bool := isSpace c || c == '\n'

def skipSpace (t : Text) : Text := t.dropWhile isSpace

/-- Control characters, which comments and strings do not hold; a tab is allowed. -/
def isIllegal (c : Char) : Bool := (c.toNat < 32 && c != '\t') || c.toNat == 127

def readHexChar? (width : Nat) : Reader Char := fun t => do
  let n ← Text.hexValue? (t.take width)
  if (t.take width).length = width && (n < 0xd800 || (0xe000 ≤ n && n < 0x110000)) then
    return (Char.ofNat n, t.drop width)
  else none

/-- The character that an escape stands for. -/
def readEscape? : Reader Char
  | 'b' :: t => some (Char.ofNat 8, t)
  | 't' :: t => some ('\t', t)
  | 'n' :: t => some ('\n', t)
  | 'f' :: t => some (Char.ofNat 12, t)
  | 'r' :: t => some ('\r', t)
  | '"' :: t => some ('"', t)
  | '\\' :: t => some ('\\', t)
  | 'u' :: t => readHexChar? 4 t
  | 'U' :: t => readHexChar? 8 t
  | _ => none

/-- What follows a backslash at the end of a line, with the blanks and newlines after it. -/
def skipLineEnd? (t : Text) : Option Text :=
  match skipSpace t with
  | '\n' :: rest => some (rest.dropWhile isSpaceOrNewline)
  | _ => none

/-- A string between double quotes, from after the opening quote, in `fuel` steps. -/
def readBasicFrom : Nat → Reader Text
  | 0, _ => none
  | _, [] => none
  | fuel + 1, c :: t =>
    if c == '"' then some ([], t)
    else if c == '\\' then do
      let (e, rest) ← readEscape? t
      let (s, rest) ← readBasicFrom fuel rest
      return (e :: s, rest)
    else if isIllegal c then none
    else (readBasicFrom fuel t).map fun p => (c :: p.1, p.2)

/-- At most two more quotes belong to a string that ends with three. -/
def readExtraQuotes (quote : Char) (t : Text) : Text × Text :=
  let extra := (t.takeWhile (· == quote)).take 2
  (extra, t.drop extra.length)

def tripleQuote (quote : Char) : Text := [quote, quote, quote]

/-- A string between three double quotes, from after the opening quotes, in `fuel` steps. -/
def readLongBasicFrom : Nat → Reader Text
  | 0, _ => none
  | _, [] => none
  | fuel + 1, c :: t =>
    match Text.after? (tripleQuote '"') (c :: t) with
    | some rest => some (readExtraQuotes '"' rest)
    | none =>
      if c == '\\' then
        match skipLineEnd? t with
        | some rest => readLongBasicFrom fuel rest
        | none => do
          let (e, rest) ← readEscape? t
          let (s, rest) ← readLongBasicFrom fuel rest
          return (e :: s, rest)
      else if isIllegal c && c != '\n' then none
      else (readLongBasicFrom fuel t).map fun p => (c :: p.1, p.2)

/-- A string between apostrophes, from after the first. -/
def readLiteral : Reader Text
  | [] => none
  | c :: t =>
    if c == Text.apostrophe then some ([], t)
    else if isIllegal c then none
    else (readLiteral t).map fun p => (c :: p.1, p.2)

/-- A string between three apostrophes, from after the first three. -/
def readLongLiteral : Reader Text
  | [] => none
  | c :: t =>
    match Text.after? (tripleQuote Text.apostrophe) (c :: t) with
    | some rest => some (readExtraQuotes Text.apostrophe rest)
    | none =>
      if isIllegal c && c != '\n' then none
      else (readLongLiteral t).map fun p => (c :: p.1, p.2)

/-- A newline right after the opening quotes is no part of a long string. -/
def dropNewline : Text → Text
  | '\n' :: t => t
  | t => t

def readBasic (t : Text) : Option (Text × Text) := readBasicFrom (t.length + 1) t

def readLongBasic (t : Text) : Option (Text × Text) :=
  readLongBasicFrom (t.length + 1) (dropNewline t)

/-- A string of any of the four forms, if one starts here. -/
def readString? (t : Text) : Option (Option (Text × Text)) :=
  match Text.after? (tripleQuote '"') t, Text.after? (tripleQuote Text.apostrophe) t with
  | some rest, _ => some (readLongBasic rest)
  | _, some rest => some (readLongLiteral (dropNewline rest))
  | none, none => match t with
    | [] => none
    | c :: rest =>
      if c == '"' then some (readBasic rest)
      else if c == Text.apostrophe then some (readLiteral rest)
      else none

def isBare (c : Char) : Bool := c.isAlphanum || c == '-' || c == '_'

def readKeyPart : Reader String
  | [] => none
  | c :: t =>
    if isBare c then some (Text.str (c :: t.takeWhile isBare), t.dropWhile isBare)
    else if c == '"' then (readBasic t).map fun p => (Text.str p.1, p.2)
    else if c == Text.apostrophe then (readLiteral t).map fun p => (Text.str p.1, p.2)
    else none

/-- Parts divided by points, with blanks around them, in `fuel` steps. -/
def readKeyFrom : Nat → Reader (List String)
  | 0, _ => none
  | fuel + 1, t => do
    let (part, rest) ← readKeyPart t
    match skipSpace rest with
    | '.' :: rest =>
      let (parts, rest) ← readKeyFrom fuel (skipSpace rest)
      return (part :: parts, rest)
    | rest => return ([part], rest)

def readKey (t : Text) : Option (List String × Text) := readKeyFrom (t.length + 1) t

/-- Digits of a kind, with single underscores between them. -/
def readDigits (isDigit : Char → Bool) : Text → Text × Text
  | '_' :: c :: t => if isDigit c then
      let (ds, rest) := readDigits isDigit t
      (c :: ds, rest)
    else ([], '_' :: c :: t)
  | c :: t => if isDigit c then
      let (ds, rest) := readDigits isDigit t
      (c :: ds, rest)
    else ([], c :: t)
  | [] => ([], [])

/-- At least one digit, the first without an underscore before it. -/
def readDigits? (isDigit : Char → Bool) (t : Text) : Option (Text × Text) :=
  if t.head?.any isDigit then some (readDigits isDigit t) else none

def radix? : Char → Option Nat
  | 'x' => some 16
  | 'b' => some 2
  | 'o' => some 8
  | _ => none

/-- A number to a base other than ten. -/
def readRadix : Reader Value
  | '0' :: c :: t => do
    let base ← radix? c
    let inBase (d : Char) : Bool := (Text.hexDigit? d).any (· < base)
    let (digits, rest) ← readDigits? inBase t
    let n := digits.foldl (fun n d => base * n + (Text.hexDigit? d).getD 0) 0
    return (.int n, rest)
  | _ => none

def readFraction (t : Text) : Option Text × Text :=
  match t with
  | '.' :: rest => match readDigits? Char.isDigit rest with
    | some (ds, rest) => (some ds, rest)
    | none => (none, t)
  | _ => (none, t)

def readExponent (t : Text) : Option (Bool × Text) × Text :=
  match t with
  | c :: rest =>
    if c == 'e' || c == 'E' then
      let (negative, rest) := Numeral.readSign rest
      match readDigits? Char.isDigit rest with
      | some (ds, rest) => (some (negative, ds), rest)
      | none => (none, t)
    else (none, t)
  | [] => (none, t)

/-- A decimal numeral without leading zeros. -/
def readDecimal : Reader Numeral := fun t => do
  let (negative, rest) := Numeral.readSign t
  let (whole, rest) ← match rest with
    | '0' :: rest => some (['0'], rest)
    | _ => readDigits? Char.isDigit rest
  let (fraction, rest) := readFraction rest
  let (exponent, rest) := readExponent rest
  return (⟨negative, whole, fraction, exponent⟩, rest)

def ofDecimal (n : Numeral) : Except Fault Value :=
  if n.isInteger then
    match Number.ofIntegerNumeral n with
    | .ok i => .ok (.int i)
    | .error _ => .error .tooManyDigits
  else .ok (.number (.float n.toDouble))

/-- The doubles that have a name. -/
def readSpecial : Reader Value := fun t =>
  let (negative, rest) := Numeral.readSign t
  match Text.after? "inf".toList rest, Text.after? "nan".toList rest with
  | some rest, _ => some (.number (.float (.infinite negative)), rest)
  | _, some rest => some (.number (.float .nan), rest)
  | none, none => none

/-- A number of exactly `width` digits between two limits. -/
def readNumber (width low high : Nat) : Reader Nat := fun t =>
  let digits := t.take width
  if digits.length = width && digits.all Char.isDigit then
    let n := Text.digitsValue 0 digits
    if low ≤ n ∧ n ≤ high then some (n, t.drop width) else none
  else none

def skipChar (isIt : Char → Bool) : Text → Option Text
  | [] => none
  | c :: t => if isIt c then some t else none

/-- A time of day; digits of a second may follow. -/
def skipTime (t : Text) : Option Text := do
  let (_, t) ← readNumber 2 0 23 t
  let (_, t) ← readNumber 2 0 59 (← skipChar (· == ':') t)
  let (_, t) ← readNumber 2 0 59 (← skipChar (· == ':') t)
  match t with
  | '.' :: c :: rest => return if c.isDigit then rest.dropWhile Char.isDigit else t
  | _ => return t

/-- The distance of a time zone, where one is given. -/
def skipZone (t : Text) : Text :=
  let zone? : Option Text := do
    let (_, t) ← readNumber 2 0 23 (← skipChar (fun c => c == '+' || c == '-') t)
    let (_, t) ← readNumber 2 0 59 (← skipChar (· == ':') t)
    return t
  match t with
  | c :: rest => if c == 'Z' || c == 'z' then rest else zone?.getD t
  | [] => t

def isLeap (year : Nat) : Bool := year % 4 == 0 && (year % 100 != 0 || year % 400 == 0)

def daysIn (year month : Nat) : Nat :=
  if month = 2 then (if isLeap year then 29 else 28)
  else if [4, 6, 9, 11].contains month then 30
  else 31

/-- A date, if one starts here, and whether there is such a day; a time may follow. -/
def skipDate (t : Text) : Option (Bool × Text) := do
  let (year, t) ← readNumber 4 0 9999 t
  let (month, t) ← readNumber 2 1 12 (← skipChar (· == '-') t)
  let (day, t) ← readNumber 2 1 31 (← skipChar (· == '-') t)
  let rest := match (skipChar (fun c => c == 'T' || c == 't' || c == ' ') t).bind skipTime with
    | some rest => skipZone rest
    | none => t
  return (year != 0 && day ≤ daysIn year month, rest)

end ModelSchema.Toml
