import ModelSchema.Text.Blank
import ModelSchema.Text.Digit
import ModelSchema.Text.Word

namespace ModelSchema

/-- A part of a set of characters. -/
inductive CharRange where
  | between (low high : Nat)
  | digit (negated : Bool)
  | word (negated : Bool)
  | blank (negated : Bool)
  deriving DecidableEq, Repr

namespace CharRange

def single (c : Char) : CharRange := .between c.toNat c.toNat

def has (c : Char) : CharRange → Bool
  | .between low high => decide (low ≤ c.toNat) && decide (c.toNat ≤ high)
  | .digit negated => Text.isDigit c != negated
  | .word negated => Text.isWord c != negated
  | .blank negated => Text.isBlank c != negated

end CharRange

structure CharSet where
  negated : Bool
  ranges : List CharRange
  deriving DecidableEq, Repr

def CharSet.has (s : CharSet) (c : Char) : Bool := s.ranges.any (·.has c) != s.negated

/-- A pattern leads from a spot in a text to the spots where a match that begins there can end. -/
inductive Pattern where
  | empty
  | one (s : CharSet)
  | seq (p q : Pattern)
  | alt (p q : Pattern)
  /-- At least `least` times and, where there is a limit, at most `most` times. -/
  | rep (p : Pattern) (least : Nat) (most : Option Nat)
  /-- The start of the text. -/
  | start
  /-- The end of the text, or the spot before a newline that ends it. -/
  | finish
  /-- The very end of the text. -/
  | last
  /-- Between a word character and another character or an end of the text. An empty text has
  neither an edge nor its opposite. -/
  | edge (negated : Bool)
  /-- A match can begin here, or cannot. -/
  | ahead (negated : Bool) (p : Pattern)
  deriving DecidableEq, Repr

/-- A spot in a text: how many characters stand before it, the last of them, and what follows. -/
structure Spot where
  index : Nat
  before : Option Char
  rest : Text
  deriving DecidableEq, Repr

namespace Spot

/-- All spots from a spot on. -/
def onward (index : Nat) (before : Option Char) : Text → List Spot
  | [] => [⟨index, before, []⟩]
  | c :: t => ⟨index, before, c :: t⟩ :: onward (index + 1) (some c) t

def isEdge (s : Spot) : Bool := s.before.any Text.isWord != s.rest.head?.any Text.isWord

/-- The one spot of an empty text. -/
def isAlone (s : Spot) : Bool := s.before.isNone && s.rest.isEmpty

end Spot

/-- Spots of one text, the furthest first, each of them once. -/
abbrev Spots := List Spot

namespace Spots

def union : Spots → Spots → Spots
  | [], ys => ys
  | xs, [] => xs
  | x :: xs, y :: ys =>
    if y.index < x.index then x :: union xs (y :: ys)
    else if x.index < y.index then y :: union (x :: xs) ys
    else x :: union xs ys
  termination_by xs ys => xs.length + ys.length

/-- The first spots without the second. -/
def without : Spots → Spots → Spots
  | [], _ => []
  | xs, [] => xs
  | x :: xs, y :: ys =>
    if y.index < x.index then x :: without xs (y :: ys)
    else if x.index < y.index then without (x :: xs) ys
    else without xs ys
  termination_by xs ys => xs.length + ys.length

/-- The spots that lead on from some of the spots. -/
def onFrom (next : Spot → Spots) (spots : Spots) : Spots :=
  spots.foldl (fun found s => union (next s) found) []

end Spots

namespace Pattern

/-- The spots after `rounds` more rounds, with those found on the way. -/
def grow (next : Spot → Spots) : Nat → Spots → Spots → Spots
  | 0, found, _ => found
  | rounds + 1, found, fresh =>
    let new := Spots.without (Spots.onFrom next fresh) found
    if new.isEmpty then found else grow next rounds (Spots.union new found) new

/-- Where repeated matches can end. A round that stays on its spot adds nothing, so there are no
more rounds than characters. -/
def repeated (next : Spot → Spots) (least : Nat) (most : Option Nat) (s : Spot) : Spots :=
  let first := Nat.repeat (Spots.onFrom next) least [s]
  let rounds := match most with
    | none => s.rest.length
    | some m => min (m - least) s.rest.length
  grow next rounds first first

/-- The spots where a match that begins at a spot can end. -/
def ends : Pattern → Spot → Spots
  | .empty, s => [s]
  | .one set, s => match s.rest with
    | [] => []
    | c :: t => if set.has c then [⟨s.index + 1, some c, t⟩] else []
  | .seq p q, s => Spots.onFrom (ends q) (ends p s)
  | .alt p q, s => Spots.union (ends p s) (ends q s)
  | .rep p least most, s => repeated (ends p) least most s
  | .start, s => if s.before.isNone then [s] else []
  | .finish, s => if s.rest.isEmpty || s.rest == ['\n'] then [s] else []
  | .last, s => if s.rest.isEmpty then [s] else []
  | .edge negated, s => if s.isEdge != negated && !s.isAlone then [s] else []
  | .ahead negated p, s => if (ends p s).isEmpty == negated then [s] else []

/-- Whether a match begins somewhere in a text. -/
def occursIn (p : Pattern) (t : Text) : Bool :=
  (Spot.onward 0 none t).any fun s => !(ends p s).isEmpty

end Pattern

end ModelSchema
