import ModelSchema.Files.Path
import ModelSchema.Text.Utf8

namespace ModelSchema

inductive Entry where
  | file (bytes : List UInt8)
  | directory
  deriving DecidableEq, Repr

/-- The entries by the paths that lead to them. The working directory, the directories above it and
the topmost directory are always there. -/
structure FileTree where
  entries : List (Path × Entry) := []

namespace FileTree

/-- Why a path leads nowhere, or to the wrong kind of thing. -/
inductive Fault where
  | missing
  | isDirectory
  | notADirectory
  /-- A file stands where a directory is to be made. -/
  | exists
  /-- A name, or the path as a whole, is longer than any can be. -/
  | tooLong
  /-- The character zero, which can stand in no name, stands in one. -/
  | zeroCharacter
  | notUtf8
  deriving DecidableEq, Repr

/-- The most bytes in a name. -/
def maxNameBytes : Nat := 255

/-- The most bytes in a path. -/
def maxPathBytes : Nat := 4095

/-- Refuses a path that cannot be followed from any directory. -/
def checkPath (p : Path) : Except Fault Unit :=
  if p.parts.any fun n => n.toList.contains '\x00' then .error .zeroCharacter
  else if maxPathBytes < p.toString.utf8ByteSize then .error .tooLong
  else .ok ()

def checkName (name : String) : Except Fault Unit :=
  if maxNameBytes < name.utf8ByteSize then .error .tooLong else .ok ()

def at? (t : FileTree) (p : Path) : Option Entry :=
  if p.parts.all (· == "..") then some .directory else t.entries.lookup p

def put (t : FileTree) (p : Path) (e : Entry) : FileTree :=
  ⟨(p, e) :: t.entries.filter fun x => x.1 != p⟩

/-- One name further. Two points lead one level up, as long as there is one. -/
def next (here : Path) (name : String) : Path :=
  if name != ".." then here.child name
  else if here.parts.isEmpty then (if here.anchor = .here then here.child name else here)
  else if here.name == ".." then here.child name
  else here.parent

/-- Follows names from a place in the tree. -/
def follow (t : FileTree) : Path → List String → Except Fault Entry
  | here, [] => match t.at? here with
    | some e => .ok e
    | none => .error .missing
  | here, n :: names => match t.at? here with
    | none => .error .missing
    | some (.file _) => .error .notADirectory
    | some .directory => do
      checkName n
      t.follow (next here n) names

/-- The entry that a path leads to. -/
def find (t : FileTree) (p : Path) : Except Fault Entry := do
  checkPath p
  t.follow p.start p.parts

/-- The entry at a path, if there is one. A name that is too long is no answer to the question. -/
def look (t : FileTree) (p : Path) : Except Fault (Option Entry) :=
  match t.find p with
  | .ok e => .ok (some e)
  | .error .tooLong => .error .tooLong
  | .error _ => .ok none

/-- The places that are passed when names are followed. -/
def visits : Path → List String → List Path
  | _, [] => []
  | here, n :: names => next here n :: visits (next here n) names

def unifyNewlines : Text → Text
  | '\r' :: '\n' :: t => '\n' :: unifyNewlines t
  | '\r' :: t => '\n' :: unifyNewlines t
  | c :: t => c :: unifyNewlines t
  | [] => []

/-- A text file is read as UTF-8, with every form of line end as a newline. -/
def readText (t : FileTree) (p : Path) : Except Fault Text := do
  match ← t.find p with
  | .directory => .error .isDirectory
  | .file bytes => match Text.Utf8.decode? bytes with
    | some text => return unifyNewlines text
    | none => .error .notUtf8

/-- Makes the directories that are missing on the way. -/
def makeDirectories (t : FileTree) : Path → List String → Except Fault FileTree
  | _, [] => .ok t
  | here, n :: names => do
    checkName n
    match t.at? (next here n) with
    | some (.file _) => .error (if names.isEmpty then .exists else .notADirectory)
    | some .directory => t.makeDirectories (next here n) names
    | none => (t.put (next here n) .directory).makeDirectories (next here n) names

/-- The place where a path ends. -/
def place (p : Path) : Path := p.parts.foldl next p.start

/-- Writes a file, and makes the directories that it stands in. -/
def write (t : FileTree) (p : Path) (bytes : List UInt8) : Except Fault FileTree := do
  checkPath p.parent
  let t ← t.makeDirectories p.start p.parts.dropLast
  checkPath p
  checkName p.name
  match t.at? (place p) with
  | some .directory => .error .isDirectory
  | _ => return t.put (place p) (.file bytes)

end FileTree

end ModelSchema
