import ModelSchema.Number.Shortest
import ModelSchema.Text.Quoted
import ModelSchema.Value.Basic

namespace ModelSchema.Json

def layout : Double.Layout := ⟨"Infinity".toList, "NaN".toList⟩

/-- A code point as one UTF-16 unit, or as a surrogate pair. -/
def escapeCode (n : Nat) : Text :=
  if n < 0x10000 then '\\' :: 'u' :: Text.hex 4 n
  else
    '\\' :: 'u' :: Text.hex 4 (0xd800 + (n - 0x10000) / 0x400) ++
      '\\' :: 'u' :: Text.hex 4 (0xdc00 + (n - 0x10000) % 0x400)

def escape (c : Char) : Text :=
  if c == '\\' || c == Text.doubleQuote then ['\\', c]
  else if c == '\n' then ['\\', 'n']
  else if c == '\r' then ['\\', 'r']
  else if c == '\t' then ['\\', 't']
  else if c.toNat = 8 then ['\\', 'b']
  else if c.toNat = 12 then ['\\', 'f']
  else if 32 ≤ c.toNat ∧ c.toNat < 127 then [c]
  else escapeCode c.toNat

/-- Texts are written in printable ASCII only. -/
def writeText (s : String) : Text :=
  Text.doubleQuote :: s.toList.flatMap escape ++ [Text.doubleQuote]

def writeNumber : Number → Text
  | .int n => Text.ofInt n
  | .float x => x.write layout

/-- The start of a new line at a level of nesting, where there is an indent. -/
def newline (indent : Option Nat) (level : Nat) : Text :=
  match indent with
  | none => []
  | some n => '\n' :: List.replicate (n * level) ' '

/-- What stands between two items at a level of nesting. -/
def comma (indent : Option Nat) (level : Nat) : Text :=
  match indent with
  | none => [',', ' ']
  | some _ => ',' :: newline indent level

mutual

/-- With an indent, each item and entry has a line of its own, and an empty array or object stays on
one line. -/
def write (indent : Option Nat) (level : Nat) : Value → Text
  | .null => "null".toList
  | .bool true => "true".toList
  | .bool false => "false".toList
  | .number n => writeNumber n
  | .text s => writeText s
  | .array [] => ['[', ']']
  | .array (v :: vs) =>
    '[' :: newline indent (level + 1) ++ write indent (level + 1) v ++
      writeItems indent (level + 1) vs ++ newline indent level ++ [']']
  | .object [] => ['\x7b', '\x7d']
  | .object ((k, v) :: fs) =>
    '\x7b' :: newline indent (level + 1) ++ writeText k ++ [':', ' '] ++
      write indent (level + 1) v ++ writeFields indent (level + 1) fs ++
      newline indent level ++ ['\x7d']

def writeItems (indent : Option Nat) (level : Nat) : List Value → Text
  | [] => []
  | v :: vs => comma indent level ++ write indent level v ++ writeItems indent level vs

def writeFields (indent : Option Nat) (level : Nat) : List (String × Value) → Text
  | [] => []
  | (k, v) :: fs =>
    comma indent level ++ writeText k ++ [':', ' '] ++ write indent level v ++
      writeFields indent level fs

end

/-- The JSON text of a value, on one line without an indent. -/
def render (v : Value) (indent : Option Nat) : String := Text.str (write indent 0 v)

end ModelSchema.Json
