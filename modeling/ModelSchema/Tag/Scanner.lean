import ModelSchema.Tag.Basic
import ModelSchema.Text.Word

namespace ModelSchema

/-- A tag whose argument has no end. -/
structure Unterminated where
  name : Text
  column : Int
  deriving DecidableEq, Repr

/-- What the scanner is in the middle of. The characters read stand last first; `depth` counts
the open parentheses inside the argument. -/
inductive ScanMode where
  | gap
  | name (start : Int) (read : Text)
  | argument (start : Int) (name : Text) (depth : Nat) (read : Text)
  deriving DecidableEq, Repr

/-- The scanner before the character at `column`; the tags found stand last first. -/
structure Scanner where
  column : Int
  mode : ScanMode
  found : List Tag
  deriving DecidableEq, Repr

namespace Scanner

def init (offset : Int) : Scanner := ⟨offset + 1, .gap, []⟩

/-- A character outside of names and arguments. -/
def gapStep (column : Int) (found : List Tag) (c : Char) : Scanner :=
  ⟨column + 1, if c == '@' then .name column [] else .gap, found⟩

/-- A name runs as long as word characters follow the `@`, and may be empty. An argument ends at the
parenthesis that closes the one it began with. -/
def step (s : Scanner) (c : Char) : Scanner :=
  match s.mode with
  | .gap => gapStep s.column s.found c
  | .name start read =>
    if Text.isWord c then ⟨s.column + 1, .name start (c :: read), s.found⟩
    else if c == '(' then ⟨s.column + 1, .argument start read.reverse 0 [], s.found⟩
    else gapStep s.column (⟨read.reverse, none, start⟩ :: s.found) c
  | .argument start name depth read =>
    if c == '(' then ⟨s.column + 1, .argument start name (depth + 1) (c :: read), s.found⟩
    else if c == ')' then
      match depth with
      | 0 => ⟨s.column + 1, .gap, ⟨name, some read.reverse, start⟩ :: s.found⟩
      | d + 1 => ⟨s.column + 1, .argument start name d (c :: read), s.found⟩
    else ⟨s.column + 1, .argument start name depth (c :: read), s.found⟩

def finish (s : Scanner) : Except Unterminated (List Tag) :=
  match s.mode with
  | .gap => .ok s.found.reverse
  | .name start read => .ok (⟨read.reverse, none, start⟩ :: s.found).reverse
  | .argument start name _ _ => .error ⟨name, start⟩

end Scanner

/-- The tags of a text whose first character stands at column `offset + 1`. -/
def Tag.scan (offset : Int) (t : Text) : Except Unterminated (List Tag) :=
  (t.foldl Scanner.step (.init offset)).finish

end ModelSchema
