
namespace ModelSchema

/-- A text is the list of its characters. Positions, columns and lengths count characters. -/
abbrev Text := List Char

namespace Text

/-- The string with these characters. -/
def str (t : Text) : String := String.ofList t

/-- What follows `head` at the start of a text. -/
def after? : Text → Text → Option Text
  | [], t => some t
  | _ :: _, [] => none
  | h :: hs, c :: t => if h == c then after? hs t else none

def startsWith (head t : Text) : Bool := (after? head t).isSome

/-- The parts before and after the first `sep`. -/
def cut? (sep : Char) : Text → Option (Text × Text)
  | [] => none
  | c :: t => if c == sep then some ([], t) else (cut? sep t).map fun p => (c :: p.1, p.2)

/-- Puts a character in front of the first piece. -/
def consFirst (c : Char) : List Text → List Text
  | [] => [[c]]
  | p :: ps => (c :: p) :: ps

/-- The pieces between all the `sep`s; one more piece than there are `sep`s. -/
def splitOn (sep : Char) : Text → List Text
  | [] => [[]]
  | c :: t => if c == sep then [] :: splitOn sep t else consFirst c (splitOn sep t)

/-- The pieces between those `sep`s that stand outside all parentheses; at most `budget` of them
divide. The depth counts every parenthesis and may go below zero. -/
def splitOutside (sep : Char → Bool) (depth : Int) (budget : Option Nat) : Text → List Text
  | [] => [[]]
  | c :: t =>
    if c == '(' then consFirst c (splitOutside sep (depth + 1) budget t)
    else if c == ')' then consFirst c (splitOutside sep (depth - 1) budget t)
    else if sep c && depth == 0 && budget != some 0 then
      [] :: splitOutside sep depth (budget.map (· - 1)) t
    else consFirst c (splitOutside sep depth budget t)

/-- The top-level split of a text. -/
def splitTopLevel (sep : Char → Bool) (budget : Option Nat) (t : Text) : List Text :=
  splitOutside sep 0 budget t

/-- The text before its last character, and that character. -/
def splitLast? : Text → Option (Text × Char)
  | [] => none
  | c :: t => match splitLast? t with
    | none => some ([], c)
    | some (front, last) => some (c :: front, last)

/-- The text without one newline at its very end. -/
def dropFinalNewline (t : Text) : Text :=
  match splitLast? t with
  | some (front, '\n') => front
  | _ => t

/-- The text between `head` and a last `)`. -/
def enclosed? (head t : Text) : Option Text :=
  match (after? head t).bind splitLast? with
  | some (inner, ')') => some inner
  | _ => none

/-- Fills up on the left with blanks to a width of at least `width`. -/
def padLeft (width : Nat) (t : Text) : Text := List.replicate (width - t.length) ' ' ++ t

def ofNat (n : Nat) : Text := Nat.toDigits 10 n

def ofInt (n : Int) : Text := if n < 0 then '-' :: ofNat n.natAbs else ofNat n.natAbs

end Text

end ModelSchema
