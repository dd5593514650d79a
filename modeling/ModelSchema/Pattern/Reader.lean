import ModelSchema.Pattern.Basic
import ModelSchema.Text.Hex

namespace ModelSchema.Pattern

inductive Lexeme where
  /-- A pattern that can be repeated. -/
  | atom (p : Pattern)
  /-- A pattern about a spot, which cannot. -/
  | anchor (p : Pattern)
  | times (least : Nat) (most : Option Nat)
  | bar
  | group
  | aheadGroup (negated : Bool)
  | close
  | malformed

def literal (c : Char) : Pattern := .one ⟨false, [.single c]⟩

def allBut (c : Char) : Pattern := .one ⟨true, [.single c]⟩

/-- The set named by a letter after a backslash. -/
def namedSet? : Char → Option CharRange
  | 'd' => some (.digit false)
  | 'D' => some (.digit true)
  | 'w' => some (.word false)
  | 'W' => some (.word true)
  | 's' => some (.blank false)
  | 'S' => some (.blank true)
  | _ => none

/-- The character named by a letter after a backslash. -/
def namedChar? : Char → Option Char
  | 'a' => some (Char.ofNat 7)
  | 'f' => some (Char.ofNat 12)
  | 'n' => some '\n'
  | 'r' => some '\r'
  | 't' => some '\t'
  | 'v' => some (Char.ofNat 11)
  | _ => none

/-- How many hexadecimal digits follow a letter after a backslash. -/
def hexWidth? : Char → Option Nat
  | 'x' => some 2
  | 'u' => some 4
  | 'U' => some 8
  | _ => none

/-- A character given by its code, and what follows. -/
def readHex? (width : Nat) (t : Text) : Option (Char × Text) := do
  let digits := t.take width
  if digits.length = width then
    return (Char.ofNat (← Text.hexValue? digits), t.drop width)
  else none

/-- The character that an escape stands for, and what follows. Letters and digits without a
meaning are not escaped. -/
def readEscapedChar? (c : Char) (t : Text) : Option (Char × Text) :=
  match namedChar? c, hexWidth? c with
  | some named, _ => some (named, t)
  | none, some width => readHex? width t
  | none, none =>
    if c == '0' then some (Char.ofNat 0, t)
    else if c.toNat < 128 && c.isAlphanum then none
    else some (c, t)

def anchorOf? : Char → Option Pattern
  | 'A' => some .start
  | 'Z' => some .last
  | 'b' => some (.edge false)
  | 'B' => some (.edge true)
  | _ => none

def readEscape (c : Char) (t : Text) : Lexeme × Text :=
  match anchorOf? c, namedSet? c with
  | some p, _ => (.anchor p, t)
  | none, some r => (.atom (.one ⟨false, [r]⟩), t)
  | none, none => match readEscapedChar? c t with
    | some (named, rest) => (.atom (literal named), rest)
    | none => (.malformed, [])

/-- One member of a set: a named set or a character, and what follows. -/
def readMember? : Text → Option ((CharRange ⊕ Char) × Text)
  | [] => none
  | '\\' :: 'b' :: t => some (.inr (Char.ofNat 8), t)
  | ['\\'] => none
  | '\\' :: c :: t => match namedSet? c with
    | some r => some (.inl r, t)
    | none => (readEscapedChar? c t).map fun p => (.inr p.1, p.2)
  | c :: t => some (.inr c, t)

def memberRange : CharRange ⊕ Char → CharRange
  | .inl r => r
  | .inr c => .single c

/-- The members of a set up to its closing bracket, and what follows. A bracket right at the start
is a member. -/
def readSet? : Nat → List CharRange → Text → Option (List CharRange × Text)
  | 0, _, _ => none
  | fuel + 1, found, t =>
    match t, found with
    | ']' :: rest, _ :: _ => some (found, rest)
    | _, _ => do
      let (low, rest) ← readMember? t
      match rest with
      | ['-'] => none
      | '-' :: ']' :: rest => some (.single '-' :: memberRange low :: found, rest)
      | '-' :: rest =>
        let (high, rest) ← readMember? rest
        match low, high with
        | .inr a, .inr b =>
          if b.toNat < a.toNat then none
          else readSet? fuel (.between a.toNat b.toNat :: found) rest
        | _, _ => none
      | _ => readSet? fuel (memberRange low :: found) rest

def readSetLexeme (t : Text) : Lexeme × Text :=
  let (negated, body) := match t with
    | '^' :: rest => (true, rest)
    | _ => (false, t)
  match readSet? (body.length + 1) [] body with
  | some (ranges, rest) => (.atom (.one ⟨negated, ranges⟩), rest)
  | none => (.malformed, [])

/-- Passes over the mark after a repetition. A lazy repetition leads to the same spots in another
order, and a possessive one is read as a plain one. -/
def dropMode : Text → Text
  | '?' :: t => t
  | '+' :: t => t
  | t => t

/-- The bounds of a repetition in braces. Braces around anything else are literal. -/
def readBounds? (t : Text) : Option (Nat × Option Nat × Text) :=
  let low := t.takeWhile Char.isDigit
  let number (ds : Text) : Option Nat := if ds.isEmpty then none else some (Text.digitsValue 0 ds)
  match t.dropWhile Char.isDigit with
  | '\x7d' :: rest => (number low).map fun n => (n, some n, rest)
  | ',' :: rest =>
    match rest.dropWhile Char.isDigit with
    | '\x7d' :: after => some ((number low).getD 0, number (rest.takeWhile Char.isDigit), after)
    | _ => none
  | _ => none

def readBraces (t : Text) : Lexeme × Text :=
  match readBounds? t with
  | none => (.atom (literal '\x7b'), t)
  | some (least, most, rest) =>
    if most.any (· < least) then (.malformed, []) else (.times least most, dropMode rest)

/-- A name in angle brackets. -/
def readGroupName? (t : Text) : Option Text :=
  match Text.cut? '>' t with
  | some (name, rest) =>
    if Text.isWordText name && !name.head?.any Text.isDigit then some rest else none
  | none => none

def readGroup : Text → Lexeme × Text
  | '?' :: ':' :: t => (.group, t)
  | '?' :: '=' :: t => (.aheadGroup false, t)
  | '?' :: '!' :: t => (.aheadGroup true, t)
  | '?' :: 'P' :: '<' :: t => match readGroupName? t with
    | some rest => (.group, rest)
    | none => (.malformed, [])
  | '?' :: _ => (.malformed, [])
  | t => (.group, t)

def readLexeme (c : Char) (t : Text) : Lexeme × Text :=
  match c with
  | '\\' => match t with
    | [] => (.malformed, [])
    | e :: rest => readEscape e rest
  | '[' => readSetLexeme t
  | '(' => readGroup t
  | ')' => (.close, t)
  | '|' => (.bar, t)
  | '^' => (.anchor .start, t)
  | '$' => (.anchor .finish, t)
  | '.' => (.atom (allBut '\n'), t)
  | '*' => (.times 0 none, dropMode t)
  | '+' => (.times 1 none, dropMode t)
  | '?' => (.times 0 (some 1), dropMode t)
  | '\x7b' => readBraces t
  | _ => (.atom (literal c), t)

/-- All lexemes of a pattern, looked for in `fuel` steps. -/
def lexemesFrom : Nat → Text → List Lexeme
  | 0, _ => []
  | _, [] => []
  | fuel + 1, c :: t =>
    let (lexeme, rest) := readLexeme c t
    lexeme :: lexemesFrom fuel rest

/-- A group in the making: the alternatives before the last bar, and the pieces after it, last
first. A piece tells whether it can be repeated. -/
structure Group where
  ahead : Option Bool
  before : Option Pattern
  pieces : List (Pattern × Bool)

namespace Group

def current (g : Group) : Pattern := g.pieces.foldl (fun p piece => .seq piece.1 p) .empty

def pattern (g : Group) : Pattern :=
  match g.before with
  | none => g.current
  | some p => .alt p g.current

def add (g : Group) (p : Pattern) (repeatable : Bool) : Group :=
  { g with pieces := (p, repeatable) :: g.pieces }

def bar (g : Group) : Group := { g with before := some g.pattern, pieces := [] }

/-- Repeats the last piece. -/
def times? (g : Group) (least : Nat) (most : Option Nat) : Option Group :=
  match g.pieces with
  | (p, true) :: rest => some { g with pieces := (.rep p least most, false) :: rest }
  | _ => none

def closed (g : Group) : Pattern :=
  match g.ahead with
  | none => g.pattern
  | some negated => .ahead negated g.pattern

end Group

/-- The innermost open group, and those around it. -/
abbrev Groups := Group × List Group

def step (gs : Groups) : Lexeme → Option Groups
  | .atom p => some (gs.1.add p true, gs.2)
  | .anchor p => some (gs.1.add p false, gs.2)
  | .times least most => (gs.1.times? least most).map (·, gs.2)
  | .bar => some (gs.1.bar, gs.2)
  | .group => some (⟨none, none, []⟩, gs.1 :: gs.2)
  | .aheadGroup negated => some (⟨some negated, none, []⟩, gs.1 :: gs.2)
  | .close => match gs.2 with
    | [] => none
    | outer :: rest => some (outer.add gs.1.closed true, rest)
  | .malformed => none

/-- The pattern that a text spells, if it spells one. -/
def parse? (t : Text) : Option Pattern :=
  match (lexemesFrom t.length t).foldlM step (⟨none, none, []⟩, []) with
  | some (g, []) => some g.pattern
  | _ => none

end ModelSchema.Pattern
