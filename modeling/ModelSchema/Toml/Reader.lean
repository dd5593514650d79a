import ModelSchema.Toml.Lexical
import ModelSchema.Toml.Table

namespace ModelSchema.Toml

def expect {α : Type} (r : Option α) : Except Fault α :=
  match r with
  | some a => .ok a
  | none => .error .malformed

/-- A comment up to the end of its line. -/
def skipComment (t : Text) : Option Text :=
  match t with
  | '#' :: rest =>
    if (rest.takeWhile (· != '\n')).any isIllegal then none
    else some (rest.dropWhile (· != '\n'))
  | _ => some t

/-- Blanks, newlines and comments, in `fuel` steps. -/
def skipFillerFrom : Nat → Text → Option Text
  | 0, t => some t
  | fuel + 1, t =>
    match t.dropWhile isSpaceOrNewline with
    | '#' :: rest => (skipComment ('#' :: rest)).bind (skipFillerFrom fuel)
    | rest => some rest

def skipFiller (t : Text) : Except Fault Text := expect (skipFillerFrom t.length t)

/-- A value that is neither an array nor a table. -/
def readScalar (t : Text) : Except Fault (Value × Text) :=
  match readString? t with
  | some s => (expect s).map fun p => (.ofText p.1, p.2)
  | none => match Text.after? "true".toList t, Text.after? "false".toList t with
    | some rest, _ => .ok (.bool true, rest)
    | _, some rest => .ok (.bool false, rest)
    | none, none => match skipDate t, skipTime t with
      | some (true, rest), _ => .ok (.null, rest)
      | some (false, _), _ => .error .malformed
      | none, some rest => .ok (.null, rest)
      | none, none => match readRadix t, readDecimal t with
        | some r, _ => .ok r
        | none, some (n, rest) => (ofDecimal n).map (·, rest)
        | none, none => expect (readSpecial t)

mutual

/-- Reads a value in `fuel` steps. -/
def readValue : Nat → Text → Except Fault (Value × Text)
  | 0, _ => .error .malformed
  | fuel + 1, t =>
    match t with
    | '[' :: rest => do
      let (items, rest) ← readItems fuel (← skipFiller rest)
      return (.array items, rest)
    | '\x7b' :: rest => match skipSpace rest with
      | '\x7d' :: rest => .ok (.object [], rest)
      | rest => do
        let (entries, rest) ← readEntries fuel [] rest
        return (.object (entriesValue entries), rest)
    | _ => readScalar t

/-- The items of an array up to its closing bracket; a comma may stand after the last. -/
def readItems : Nat → Text → Except Fault (List Value × Text)
  | 0, _ => .error .malformed
  | fuel + 1, t =>
    match t with
    | ']' :: rest => .ok ([], rest)
    | _ => do
      let (v, rest) ← readValue fuel t
      match ← skipFiller rest with
      | ']' :: rest => return ([v], rest)
      | ',' :: rest =>
        let (vs, rest) ← readItems fuel (← skipFiller rest)
        return (v :: vs, rest)
      | _ => .error .malformed

/-- The entries of a table in braces; no comma stands after the last. -/
def readEntries : Nat → Table → Text → Except Fault (Table × Text)
  | 0, _, _ => .error .malformed
  | fuel + 1, table, t => do
    let (key, rest) ← expect (readKey t)
    let rest ← expect (skipChar (· == '=') rest)
    let (v, rest) ← readValue fuel (skipSpace rest)
    let table ← expect (table.insert 0 v key)
    match skipSpace rest with
    | '\x7d' :: rest => return (table, rest)
    | ',' :: rest => readEntries fuel table (skipSpace rest)
    | _ => .error .malformed

end

/-- The document so far, the header that is in force, and how many there were. -/
structure State where
  root : Table := []
  header : List String := []
  sectionNumber : Nat := 0

/-- Splits the last part off a key. -/
def stem (key : List String) : List String × String := (key.dropLast, key.getLast?.getD "")

/-- A header in single or double brackets. -/
def readHeader (s : State) (open_ : String → Table → Option Table) (close : String) (t : Text) :
    Except Fault (State × Text) := do
  let (key, rest) ← expect (readKey (skipSpace t))
  let (path, last) := stem key
  let root ← expect (Table.alter (open_ last) path s.root)
  let rest ← expect (Text.after? close.toList rest)
  return (⟨root, key, s.sectionNumber + 1⟩, rest)

def readPair (s : State) (t : Text) : Except Fault (State × Text) := do
  let (key, rest) ← expect (readKey t)
  let rest ← expect (skipChar (· == '=') rest)
  let rest := skipSpace rest
  let (v, rest) ← readValue (2 * rest.length + 2) rest
  let root ← expect (Table.alter (Table.insert s.sectionNumber v key) s.header s.root)
  return ({ s with root }, rest)

/-- The statement at the start of a line, if there is one. -/
def readStatement (s : State) (t : Text) : Except Fault (State × Text) :=
  match t with
  | '[' :: '[' :: rest => readHeader s Table.appendTable "]]" rest
  | '[' :: rest => readHeader s Table.openTable "]" rest
  | '#' :: _ | [] | '\n' :: _ => .ok (s, t)
  | _ => readPair s t

/-- The rest of a document, statement by statement in `fuel` steps. -/
def readFrom : Nat → State → Text → Except Fault State
  | 0, s, _ => .ok s
  | fuel + 1, s, t => do
    let (s, rest) ← readStatement s (skipSpace t)
    match ← expect (skipComment (skipSpace rest)) with
    | [] => return s
    | '\n' :: rest => readFrom fuel s rest
    | _ => .error .malformed

/-- The table that a document spells. Dates and times are read and stand as null. -/
def parse (t : Text) : Except Fault (Fields Value) :=
  (readFrom (t.length + 1) {} t).map fun s => entriesValue s.root

end ModelSchema.Toml
