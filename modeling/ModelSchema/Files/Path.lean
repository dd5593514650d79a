import ModelSchema.Text.Basic

namespace ModelSchema

/-- Where a path starts. -/
inductive Anchor where
  /-- The working directory. -/
  | here
  /-- The topmost directory. -/
  | top
  /-- The topmost directory, written with two slashes. -/
  | doubleTop
  deriving DecidableEq, Repr

namespace Anchor

/-- The anchor of a written path, by the slashes in front of it. -/
def ofText : Text → Anchor
  | '/' :: '/' :: '/' :: _ => .top
  | '/' :: '/' :: _ => .doubleTop
  | '/' :: _ => .top
  | _ => .here

def slashes : Anchor → String
  | .here => ""
  | .top => "/"
  | .doubleTop => "//"

/-- The directory at the start, however it is written. -/
def directory : Anchor → Anchor
  | .here => .here
  | .top | .doubleTop => .top

end Anchor

/-- A list of names and the place where it starts. -/
structure Path where
  anchor : Anchor
  parts : List String
  deriving DecidableEq, Repr

namespace Path

/-- Empty names and single points have no effect. -/
def ofString (s : String) : Path :=
  let names := (Text.splitOn '/' s.toList).map Text.str
  ⟨.ofText s.toList, names.filter fun n => n != "" && n != "."⟩

def joined (p : Path) : String := "/".intercalate p.parts

def toString (p : Path) : String :=
  if p.anchor = .here ∧ p.parts.isEmpty then "." else p.anchor.slashes ++ p.joined

def parent (p : Path) : Path := ⟨p.anchor, p.parts.dropLast⟩

def name (p : Path) : String := p.parts.getLast?.getD ""

def child (p : Path) (name : String) : Path := ⟨p.anchor, p.parts ++ [name]⟩

/-- The place where the path starts. -/
def start (p : Path) : Path := ⟨p.anchor.directory, []⟩

end Path

end ModelSchema
