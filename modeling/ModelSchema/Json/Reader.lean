import ModelSchema.Text.Hex
import ModelSchema.Value.Basic

namespace ModelSchema.Json

/-- Why a text is not read. -/
inductive Fault where
  | malformed
  | tooManyDigits
  deriving DecidableEq, Repr

inductive Lexeme where
  | mark (c : Char)
  | text (s : String)
  | numeral (n : Numeral)
  | constant (v : Value)
  | malformed

def isSpace (c : Char) : Bool := c == ' ' || c == '\t' || c == '\n' || c == '\r'

/-- The character that a one-letter escape stands for. -/
def escaped? (c : Char) : Option Nat :=
  if c == '"' || c == '\\' || c == '/' then some c.toNat
  else match c with
    | 'b' => some 8
    | 'f' => some 12
    | 'n' => some 10
    | 'r' => some 13
    | 't' => some 9
    | _ => none

/-- The codes of a quoted text up to its closing quote, and what follows. -/
def readCodes : Text → Option (List Nat × Text)
  | [] => none
  | '\\' :: 'u' :: a :: b :: c :: d :: t => do
    let n ← Text.hexValue? [a, b, c, d]
    let (codes, rest) ← readCodes t
    return (n :: codes, rest)
  | '\\' :: c :: t => do
    let n ← escaped? c
    let (codes, rest) ← readCodes t
    return (n :: codes, rest)
  | c :: t =>
    if c == '"' then some ([], t)
    else if c.toNat < 32 || c == '\\' then none
    else (readCodes t).map fun p => (c.toNat :: p.1, p.2)

/-- Joins the two halves of surrogate pairs. A half that stands alone is replaced. -/
def joinSurrogates : List Nat → Text
  | [] => []
  | [a] => [Char.ofNat (if 0xd800 ≤ a ∧ a < 0xe000 then 0xfffd else a)]
  | a :: b :: ns =>
    if 0xd800 ≤ a ∧ a < 0xdc00 ∧ 0xdc00 ≤ b ∧ b < 0xe000 then
      Char.ofNat (0x10000 + (a - 0xd800) * 0x400 + (b - 0xdc00)) :: joinSurrogates ns
    else
      Char.ofNat (if 0xd800 ≤ a ∧ a < 0xe000 then 0xfffd else a) :: joinSurrogates (b :: ns)

/-- A fraction of at least one digit, if there is one. -/
def readFraction : Text → Option Text × Text
  | '.' :: c :: t =>
    if c.isDigit then (some (c :: t.takeWhile Char.isDigit), t.dropWhile Char.isDigit)
    else (none, '.' :: c :: t)
  | t => (none, t)

/-- An exponent of at least one digit, if there is one. -/
def readExponent : Text → Option (Bool × Text) × Text
  | [] => (none, [])
  | c :: t =>
    let (negative, rest) := Numeral.readSign t
    let digits := rest.takeWhile Char.isDigit
    if (c == 'e' || c == 'E') && !digits.isEmpty then
      (some (negative, digits), rest.dropWhile Char.isDigit)
    else (none, c :: t)

/-- The numeral at the start of a text: no leading zeros, no plus sign. -/
def readNumeral? (t : Text) : Option (Numeral × Text) :=
  let (negative, rest) := match t with
    | '-' :: rest => (true, rest)
    | _ => (false, t)
  let (whole, rest) := match rest with
    | '0' :: rest => (['0'], rest)
    | _ => (rest.takeWhile Char.isDigit, rest.dropWhile Char.isDigit)
  if whole.isEmpty then none
  else
    let (fraction, rest) := readFraction rest
    let (exponent, rest) := readExponent rest
    some (⟨negative, whole, fraction, exponent⟩, rest)

def constants : List (String × Value) :=
  [("null", .null), ("true", .bool true), ("false", .bool false),
    ("NaN", .number (.float .nan)), ("Infinity", .number (.float (.infinite false))),
    ("-Infinity", .number (.float (.infinite true)))]

def readConstant? (t : Text) : Option (Value × Text) :=
  constants.findSome? fun c => (Text.after? c.1.toList t).map (c.2, ·)

def isMark (c : Char) : Bool :=
  c == '[' || c == ']' || c == '\x7b' || c == '\x7d' || c == ':' || c == ','

/-- The lexeme at the start of a text, and what follows. Nothing follows a malformed one. -/
def readLexeme (c : Char) (t : Text) : Lexeme × Text :=
  if isMark c then (.mark c, t)
  else if c == '"' then
    match readCodes t with
    | some (codes, rest) => (.text (Text.str (joinSurrogates codes)), rest)
    | none => (.malformed, [])
  else match readConstant? (c :: t) with
    | some (v, rest) => (.constant v, rest)
    | none => match readNumeral? (c :: t) with
      | some (n, rest) => (.numeral n, rest)
      | none => (.malformed, [])

/-- All lexemes of a text, looked for in `fuel` steps. -/
def lexemesFrom : Nat → Text → List Lexeme
  | 0, _ => []
  | _, [] => []
  | fuel + 1, c :: t =>
    if isSpace c then lexemesFrom fuel t
    else
      let (lexeme, rest) := readLexeme c t
      lexeme :: lexemesFrom fuel rest

/-- Each step uses up a character, so the length of the text is enough. -/
def lexemes (t : Text) : List Lexeme := lexemesFrom t.length t

/-- An array or object that is not closed yet; items stand last first. -/
inductive Partial where
  | array (items : List Value)
  | object (fields : Fields Value) (key : String)

/-- What may come next. -/
inductive State where
  | value (stack : List Partial)
  | itemOrEnd (stack : List Partial)
  | key (stack : List Partial) (fields : Fields Value)
  | keyOrEnd (stack : List Partial)
  | colon (stack : List Partial) (fields : Fields Value) (key : String)
  | afterItem (stack : List Partial) (items : List Value)
  | afterEntry (stack : List Partial) (fields : Fields Value)
  | finished (v : Value)

/-- A value is complete: it joins the innermost array or object. -/
def complete (v : Value) : List Partial → State
  | [] => .finished v
  | .array items :: stack => .afterItem stack (v :: items)
  | .object fields key :: stack => .afterEntry stack (fields.put key v)

def ofNumeral (n : Numeral) : Except Fault Value :=
  if n.isInteger then
    match Number.ofIntegerNumeral n with
    | .ok i => .ok (.int i)
    | .error _ => .error .tooManyDigits
  else .ok (.number (.float n.toDouble))

/-- A value starts here. -/
def start (stack : List Partial) : Lexeme → Except Fault State
  | .mark '[' => .ok (.itemOrEnd stack)
  | .mark '\x7b' => .ok (.keyOrEnd stack)
  | .text s => .ok (complete (.text s) stack)
  | .constant v => .ok (complete v stack)
  | .numeral n => (ofNumeral n).map (complete · stack)
  | _ => .error .malformed

def step : State → Lexeme → Except Fault State
  | .value stack, l => start stack l
  | .itemOrEnd stack, .mark ']' => .ok (complete (.array []) stack)
  | .itemOrEnd stack, l => start (.array [] :: stack) l
  | .keyOrEnd stack, .mark '\x7d' => .ok (complete (.object []) stack)
  | .keyOrEnd stack, .text k => .ok (.colon stack [] k)
  | .key stack fields, .text k => .ok (.colon stack fields k)
  | .colon stack fields k, .mark ':' => .ok (.value (.object fields k :: stack))
  | .afterItem stack items, .mark ',' => .ok (.value (.array items :: stack))
  | .afterItem stack items, .mark ']' => .ok (complete (.array items.reverse) stack)
  | .afterEntry stack fields, .mark ',' => .ok (.key stack fields)
  | .afterEntry stack fields, .mark '\x7d' => .ok (complete (.object fields) stack)
  | _, _ => .error .malformed

/-- The value that a JSON text spells. Beside the standard, `NaN` and the two infinities are read;
of two entries with the same key the last value counts, in the place of the first. -/
def parse (t : Text) : Except Fault Value := do
  match ← (lexemes t).foldlM step (.value []) with
  | .finished v => return v
  | _ => .error .malformed

end ModelSchema.Json
