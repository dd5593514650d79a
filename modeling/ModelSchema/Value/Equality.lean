import ModelSchema.Value.Basic

namespace ModelSchema.Value

def sameNumber (m n : Number) : Bool := m.eq n || (m == .float .nan && n == .float .nan)

/-- The equality of two values that are no arrays and no objects. -/
def sameScalar (loose : Bool) : Value → Value → Bool
  | .null, .null => true
  | .text s, .text t => s == t
  | .bool a, .bool b => a == b
  | .number m, .number n => sameNumber m n
  | v, w => loose && match v.number?, w.number? with
    | some m, some n => sameNumber m n
    | _, _ => false

mutual

/-- When `loose`, a switch equals the number that it counts as. -/
def same (loose : Bool) : Value → Value → Bool
  | .array xs, w => match w with
    | .array ys => sameItems loose xs ys
    | _ => false
  | .object fs, w => match w with
    | .object gs => fs.length == gs.length && sameFields loose fs gs
    | _ => false
  | v, w => sameScalar loose v w

def sameItems (loose : Bool) : List Value → List Value → Bool
  | [], [] => true
  | v :: vs, w :: ws => same loose v w && sameItems loose vs ws
  | _, _ => false

def sameFields (loose : Bool) : List (String × Value) → List (String × Value) → Bool
  | [], _ => true
  | (k, v) :: fs, gs =>
    (match Fields.get? k gs with
      | some w => same loose v w
      | none => false) && sameFields loose fs gs

end

/-- The equality that schemas go by. Numbers are equal by value, and objects whatever the order of
their entries; a switch equals no number. -/
def equal (v w : Value) : Bool := same false v w

mutual

/-- Whether a value comes before another; `none` if the two have no order. -/
def before? : Value → Value → Option Bool
  | .text s, .text t => some (s < t)
  | .array xs, .array ys => beforeItems? xs ys
  | v, w => do return (← v.number?).lt (← w.number?)

/-- Arrays are ordered by the first items that differ, then by length. -/
def beforeItems? : List Value → List Value → Option Bool
  | _, [] => some false
  | [], _ :: _ => some true
  | v :: vs, w :: ws => if same true v w then beforeItems? vs ws else before? v w

end

/-- Puts a value after all those that it does not come before. -/
def insert? (v : Value) : List Value → Option (List Value)
  | [] => some [v]
  | w :: ws => do
    if ← before? v w then return v :: w :: ws
    else return w :: (← insert? v ws)

def isSwitch : Value → Bool
  | .bool _ => true
  | _ => false

/-- The values in order, if all those that meet have one. -/
def sorted? (vs : List Value) : Option (List Value) :=
  if vs.length ≥ 2 && vs.any isSwitch then none
  else vs.foldlM (fun done v => insert? v done) []

def neighboursDiffer : List Value → Bool
  | v :: w :: vs => !equal v w && neighboursDiffer (w :: vs)
  | _ => true

def allDiffer : List Value → Bool
  | [] => true
  | v :: vs => vs.all (fun w => !equal w v) && allDiffer vs

/-- No item occurs twice. Items that can be sorted are compared with their neighbours in order. -/
def distinct (vs : List Value) : Bool :=
  match sorted? vs with
  | some ordered => neighboursDiffer ordered
  | none => allDiffer vs

end ModelSchema.Value
