
namespace ModelSchema

/-- A table that keeps its entries in the order in which the keys were first written. -/
abbrev Fields (α : Type) := List (String × α)

namespace Fields

variable {α : Type}

def get? (key : String) : Fields α → Option α
  | [] => none
  | (k, v) :: fs => if k = key then some v else get? key fs

def has (key : String) (fs : Fields α) : Bool := (fs.get? key).isSome

def keys (fs : Fields α) : List String := fs.map Prod.fst

/-- Writing a key again replaces the value and keeps the place. -/
def put (key : String) (value : α) : Fields α → Fields α
  | [] => [(key, value)]
  | (k, v) :: fs => if k = key then (k, value) :: fs else (k, v) :: put key value fs

def erase (key : String) : Fields α → Fields α
  | [] => []
  | (k, v) :: fs => if k = key then fs else (k, v) :: erase key fs

/-- Writes all entries of `new`, in order. -/
def putAll (new old : Fields α) : Fields α := new.foldl (fun fs e => fs.put e.1 e.2) old

/-- The table that the entries give when written in order. -/
def ofEntries (es : List (String × α)) : Fields α := putAll es []

end Fields

end ModelSchema
