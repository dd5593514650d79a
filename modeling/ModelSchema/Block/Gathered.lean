import ModelSchema.Expression.Condition
import ModelSchema.Expression.View

namespace ModelSchema

/-- How a field is displayed. -/
structure Hints where
  type : Text
  listType : Text
  order : Int
  group : Text
  lookup : Text
  collection : Text
  displayMember : Text
  valueMember : Text
  deriving DecidableEq, Repr

def Hints.toValue (h : Hints) : Value :=
  .object
    [("uiType", .ofText h.type), ("uiListType", .ofText h.listType), ("uiOrder", .int h.order),
      ("uiGroup", .ofText h.group), ("uiLookup", .ofText h.lookup),
      ("uiCollection", .ofText h.collection),
      ("uiCollectionDisplayMember", .ofText h.displayMember),
      ("uiCollectionValueMember", .ofText h.valueMember)]

/-- What a block gathers beside its properties. It is written to the schema when the block
closes. -/
structure Gathered where
  required : List String := []
  hints : Fields Hints := []
  rules : List Rule := []
  sort : List SortRule := []
  breadcrumb : List BreadcrumbRule := []
  collection : Fields String := []
  fieldPermissions : List (String × Fields String) := []

namespace Gathered

def permissionTable (p : Fields String) : Value := .object (p.map fun e => (e.1, .text e.2))

def hintsValue (g : Gathered) : Value := .object (g.hints.map fun e => (e.1, e.2.toValue))

def fieldPermissionsValue (g : Gathered) : Value :=
  .array (g.fieldPermissions.map fun e => .object [(e.1, permissionTable e.2)])

/-- The entry, unless there is nothing to write. -/
def unlessEmpty (empty : Bool) (key : String) (v : Value) : Fields Value :=
  if empty then [] else [(key, v)]

/-- The entries under `permissions`. -/
def permissions (g : Gathered) : Fields Value :=
  unlessEmpty g.collection.isEmpty "collection" (permissionTable g.collection) ++
    unlessEmpty g.fieldPermissions.isEmpty "field" g.fieldPermissionsValue

/-- The entries other than `permissions`. -/
def plainEntries (g : Gathered) : Fields Value :=
  unlessEmpty g.hints.isEmpty "ui" g.hintsValue ++
    unlessEmpty g.required.isEmpty "required" (.texts g.required) ++
    unlessEmpty g.rules.isEmpty "allOf" (.array (g.rules.map Rule.toValue)) ++
    unlessEmpty g.sort.isEmpty "sort" (.array (g.sort.map SortRule.toValue)) ++
    unlessEmpty g.breadcrumb.isEmpty "breadcrumb"
      (.array (g.breadcrumb.map BreadcrumbRule.toValue))

/-- All entries for a schema that has none of their keys yet. -/
def entries (g : Gathered) : Fields Value :=
  g.plainEntries ++ unlessEmpty g.permissions.isEmpty "permissions" (.object g.permissions)

/-- Writes the permissions into a schema, beside those that it has. -/
def flushPermissions (g : Gathered) (target : Fields Value) : Except Breakdown (Fields Value) :=
  if g.permissions.isEmpty then .ok target
  else match target.get? "permissions" with
    | none => .ok (target.put "permissions" (.object g.permissions))
    | some (.object old) =>
      .ok (target.put "permissions" (.object (Fields.putAll g.permissions old)))
    | some _ => .error .notAnObject

/-- Writes everything into a schema that may have entries already. -/
def flush (g : Gathered) (target : Fields Value) : Except Breakdown (Fields Value) :=
  g.flushPermissions (Fields.putAll g.plainEntries target)

def addRule (r : Rule) (g : Gathered) : Gathered := { g with rules := g.rules ++ [r] }

def addSort (r : SortRule) (g : Gathered) : Gathered := { g with sort := g.sort ++ [r] }

def addBreadcrumb (r : BreadcrumbRule) (g : Gathered) : Gathered :=
  { g with breadcrumb := g.breadcrumb ++ [r] }

/-- Adds to the permissions of the collection. -/
def addCollection (p : Fields String) (g : Gathered) : Gathered :=
  { g with collection := Fields.putAll p g.collection }

end Gathered

end ModelSchema
