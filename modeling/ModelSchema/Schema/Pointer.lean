import ModelSchema.Schema.Findings
import ModelSchema.Text.Hex
import ModelSchema.Text.Utf8

namespace ModelSchema.Pointer

/-- A byte given by two hexadecimal digits. -/
def byte? (a b : Char) : Option UInt8 := (Text.hexValue? [a, b]).map UInt8.ofNat

def utf8 (c : Char) : List UInt8 := (String.ofList [c]).toUTF8.toList

/-- The bytes of a text with its percent escapes decoded. -/
def percentBytes : Text → List UInt8
  | '%' :: a :: b :: t => match byte? a b with
    | some n => n :: percentBytes t
    | none => utf8 '%' ++ percentBytes (a :: b :: t)
  | [] => []
  | c :: t => utf8 c ++ percentBytes t

def percentDecode (t : Text) : Text := Text.Utf8.decodeLossy (percentBytes t)

/-- Replaces `~` and `code` by `c`. -/
def replaceTilde (code c : Char) : Text → Text
  | '~' :: d :: t =>
    if d == code then c :: replaceTilde code c t else '~' :: replaceTilde code c (d :: t)
  | [] => []
  | d :: t => d :: replaceTilde code c t

/-- In a key, `~1` stands for a slash and `~0` for a tilde. -/
def key (segment : Text) : String :=
  Text.str (replaceTilde '0' '~' (replaceTilde '1' '/' segment))

/-- The item at a position; a negative position counts from the end. -/
def item? (xs : List Value) (n : Int) : Option Value :=
  if 0 ≤ n then xs[n.toNat]?
  else if n.natAbs ≤ xs.length then xs[xs.length - n.natAbs]? else none

def position (segment : Text) : Except SchemaFault Int :=
  match Number.looseInteger? segment with
  | some n => .ok n
  | none => .error .badPosition

def found (v : Option Value) : Except SchemaFault Value :=
  match v with
  | some v => .ok v
  | none => .error .danglingReference

/-- The part of a value that one segment leads to. -/
def step (v : Value) (segment : Text) : Except SchemaFault Value :=
  match v with
  | .object fs => found (Fields.get? (key segment) fs)
  | .array xs => do found (item? xs (← position segment))
  | .text s => do found (item? (s.toList.map fun c => .ofText [c]) (← position segment))
  | _ => .error .unusable

/-- The part of `root` that a reference `#/a/b` leads to, through entries and items. -/
def resolve (root : Value) (reference : Text) : Except SchemaFault Value :=
  match reference with
  | ['#'] => .ok root
  | '#' :: '/' :: path => (Text.splitOn '/' (percentDecode path)).foldlM step root
  | _ => .error .danglingReference

end ModelSchema.Pointer
