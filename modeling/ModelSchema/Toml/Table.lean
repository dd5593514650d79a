import ModelSchema.Value.Basic

namespace ModelSchema.Toml

/-- How a table came about, which decides whether it may be opened or written to again. A key with
points belongs to the section that it stands in. -/
inductive Origin where
  | onTheWay
  | byKey (sectionNumber : Nat)
  | byHeader
  deriving DecidableEq, Repr

inductive Node where
  | value (v : Value)
  | table (origin : Origin) (entries : List (String × Node))
  /-- An array of tables; the last one, which is open, comes first. -/
  | tables (items : List (List (String × Node)))

abbrev Table := List (String × Node)

mutual

def Node.toValue : Node → Value
  | .value v => v
  | .table _ entries => .object (entriesValue entries)
  | .tables items => .array (itemsValue items)

def entriesValue : List (String × Node) → List (String × Value)
  | [] => []
  | (k, n) :: es => (k, n.toValue) :: entriesValue es

/-- The tables of an array, in the order in which they were opened. -/
def itemsValue : List (List (String × Node)) → List Value
  | [] => []
  | es :: items => itemsValue items ++ [.object (entriesValue es)]

end

namespace Table

/-- Changes the table that a path of keys leads to; missing tables come about on the way. In an
array of tables the path leads into the last one. -/
def alter (change : Table → Option Table) : List String → Table → Option Table
  | [], t => change t
  | k :: ks, t => do
    let inner ← match Fields.get? k t with
      | none => (alter change ks []).map (.table .onTheWay)
      | some (.table origin es) => (alter change ks es).map (.table origin)
      | some (.tables (es :: items)) => (alter change ks es).map fun es => .tables (es :: items)
      | some _ => none
    return Fields.put k inner t

/-- Opens the table under a key. It can be opened by a header once, and not if a key with points
has made or used it. -/
def openTable (k : String) (t : Table) : Option Table :=
  match Fields.get? k t with
  | none => some (Fields.put k (.table .byHeader []) t)
  | some (.table .onTheWay es) => some (Fields.put k (.table .byHeader es) t)
  | some _ => none

/-- Appends a table to the array under a key. -/
def appendTable (k : String) (t : Table) : Option Table :=
  match Fields.get? k t with
  | none => some (Fields.put k (.tables [[]]) t)
  | some (.tables items) => some (Fields.put k (.tables ([] :: items)) t)
  | some _ => none

/-- Whether a key with points may lead through a table. -/
def mayExtend (sectionNumber : Nat) : Origin → Bool
  | .onTheWay => true
  | .byKey n => n == sectionNumber
  | .byHeader => false

/-- Writes a value under a key with points. -/
def insert (sectionNumber : Nat) (v : Value) : List String → Table → Option Table
  | [], _ => none
  | [k], t => if Fields.has k t then none else some (Fields.put k (.value v) t)
  | k :: ks, t => do
    let es ← match Fields.get? k t with
      | none => some []
      | some (.table origin es) => if mayExtend sectionNumber origin then some es else none
      | some _ => none
    let es ← insert sectionNumber v ks es
    return Fields.put k (.table (.byKey sectionNumber) es) t

end Table

end ModelSchema.Toml
