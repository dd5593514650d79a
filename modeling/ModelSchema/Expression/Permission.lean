import ModelSchema.Error.Cause
import ModelSchema.Text.Blank
import ModelSchema.Value.Fields

namespace ModelSchema.Permission

/-- How much of a pair has been seen. The characters read stand last first. -/
inductive Mode where
  | outside
  | word (read : Text)
  | colon (word : Text)
  | value (word read : Text)
  deriving DecidableEq, Repr

structure Scanner where
  mode : Mode
  found : List (Text × Text)
  deriving DecidableEq, Repr

namespace Scanner

/-- A character at which a word may begin. -/
def outsideStep (found : List (Text × Text)) (c : Char) : Scanner :=
  ⟨if Text.isWord c then .word [c] else .outside, found⟩

def step (s : Scanner) (c : Char) : Scanner :=
  match s.mode with
  | .outside => outsideStep s.found c
  | .word read =>
    if Text.isWord c then ⟨.word (c :: read), s.found⟩
    else if c == ':' then ⟨.colon read.reverse, s.found⟩
    else ⟨.outside, s.found⟩
  | .colon word =>
    if Text.isBlank c then s
    else if c == Text.doubleQuote then ⟨.value word [], s.found⟩
    else outsideStep s.found c
  | .value word read =>
    if c == Text.doubleQuote then ⟨.outside, (word, read.reverse) :: s.found⟩
    else ⟨.value word (c :: read), s.found⟩

end Scanner

/-- The pairs `word: "text"` of an expression in order, wherever they stand. -/
def pairs (expression : Text) : List (Text × Text) :=
  (expression.foldl Scanner.step ⟨.outside, []⟩).found.reverse

/-- The table of the pairs. Of two with the same word the last text counts. -/
def table (expression : Text) : Fields String :=
  Fields.ofEntries ((pairs expression).map fun p => (Text.str p.1, Text.str p.2))

def compile (expression : Text) : Except Failure (Fields String) :=
  if (pairs expression).isEmpty then .error (.because (.permission expression))
  else .ok (table expression)

end ModelSchema.Permission
