import ModelSchema.Number.Shortest
import ModelSchema.Text.Quoted
import ModelSchema.Value.Basic

namespace ModelSchema.Value

def displayLayout : Double.Layout := ⟨"inf".toList, "nan".toList⟩

def displayNumber : Number → Text
  | .int n => Text.ofInt n
  | .float x => x.write displayLayout

def commaSeparated : List Text → Text
  | [] => []
  | [t] => t
  | t :: ts => t ++ ", ".toList ++ commaSeparated ts

mutual

def displayed : Value → Text
  | .null => "None".toList
  | .bool true => "True".toList
  | .bool false => "False".toList
  | .number n => displayNumber n
  | .text s => Text.quoted s.toList
  | .array xs => '[' :: commaSeparated (displayedItems xs) ++ [']']
  | .object fs => '\x7b' :: commaSeparated (displayedFields fs) ++ ['\x7d']

def displayedItems : List Value → List Text
  | [] => []
  | v :: vs => displayed v :: displayedItems vs

def displayedFields : List (String × Value) → List Text
  | [] => []
  | (k, v) :: fs => (Text.quoted k.toList ++ ": ".toList ++ displayed v) :: displayedFields fs

end

/-- The value as a message shows it: texts quoted, the three constants with a capital letter, arrays
in square and objects in curly brackets. -/
def display (v : Value) : String := Text.str v.displayed

end ModelSchema.Value
