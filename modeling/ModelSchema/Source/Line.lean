import ModelSchema.Text.Blank

namespace ModelSchema

/-- A statement and the number of its line, counted from one. -/
structure SourceLine where
  number : Nat
  text : Text
  deriving DecidableEq, Repr

namespace SourceLine

def isComment (t : Text) : Bool := Text.startsWith "//".toList t

/-- The statement in a raw line, unless it is blank or a comment. -/
def ofRaw? (n : Nat) (raw : Text) : Option SourceLine :=
  let t := Text.strip raw
  if t.isEmpty || isComment t then none else some ⟨n, t⟩

/-- The statements among raw lines, the first of which has the number `n`. -/
def readFrom : Nat → List Text → List SourceLine
  | _, [] => []
  | n, raw :: raws => (ofRaw? n raw).toList ++ readFrom (n + 1) raws

/-- The statements of a document. Blank lines and comment lines are counted and left out. -/
def read (t : Text) : List SourceLine := readFrom 1 (Text.splitOn '\n' t)

end SourceLine

end ModelSchema
