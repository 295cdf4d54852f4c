import Odm.Schema.EntityType
import Odm.Schema.Error

/-!
# Catalogs of entity types

A catalog holds entity types in ascending order of their names, one of each name. Types
refer to each other by name, and walks begin with a name too: that of a type of the catalog
stands for the type.

Inheritance is read off a catalog in both directions. `chain` walks from a type up its base
types. `descendants` lists everything below a type, level by level; `link` has each type keep
the names of those below it, and from then on `derived` looks these names up.

A walk up the base types takes at most as many steps as there are types. A chain that
is still going on after that many steps runs in a circle, which is how `checkBases`
finds one; in a catalog that passes the check every chain ends in a type without a
base.
-/

namespace Odm

/-- Entity types by name. -/
structure Catalog where
  types : List EntityType := []
  deriving DecidableEq, Repr, Inhabited

namespace Catalog

/-- The list with `t` at its place, instead of a type of the same name. -/
def insertType (t : EntityType) : List EntityType → List EntityType
  | [] => [t]
  | u :: rest =>
    if u.name = t.name then t :: rest
    else if t.name < u.name then t :: u :: rest
    else u :: insertType t rest

/-- The catalog with one more type; a type of the same name is replaced. -/
def add (c : Catalog) (t : EntityType) : Catalog := ⟨insertType t c.types⟩

/-- The type of that name. -/
def find? (c : Catalog) (name : String) : Option EntityType :=
  c.types.find? (·.name = name)

def contains (c : Catalog) (name : String) : Bool := (c.find? name).isSome

/-- The type of that name, or the error that there is none. -/
def entityType (c : Catalog) (name : String) : Except SchemaError EntityType :=
  match c.find? name with
  | some t => .ok t
  | none => .error (.unknownEntityType name)

/-- The catalog with every type changed by `f`, which keeps names. -/
def mapTypes (c : Catalog) (f : EntityType → EntityType) : Catalog := ⟨c.types.map f⟩

/-- The catalog with the type of that name changed by `f`, which keeps its name. -/
def modify (c : Catalog) (name : String) (f : EntityType → EntityType) : Catalog :=
  c.mapTypes fun t => if t.name = name then f t else t

/-! ## Upwards -/

/-- At most `steps` types from the named one up its base types. -/
def climb (c : Catalog) : (steps : Nat) → String → List EntityType
  | 0, _ => []
  | steps + 1, name =>
    match c.find? name with
    | none => []
    | some t =>
      match t.base with
      | none => [t]
      | some base => t :: climb c steps base

/-- The named type followed by its base types, most derived first. -/
def chain (c : Catalog) (name : String) : List EntityType := c.climb c.types.length name

/-- The least derived type of the hierarchy. -/
def root? (c : Catalog) (name : String) : Option EntityType := (c.chain name).getLast?

/-- The name of the hierarchy's least derived type; an unknown type stands for itself. -/
def rootName (c : Catalog) (name : String) : String :=
  ((c.root? name).map (·.name)).getD name

/-- Whether the type `derived` is `base` or derives from it. -/
def isAssignable (c : Catalog) (base derived : String) : Bool :=
  (c.chain derived).any (·.name = base)

/-- Whether two types belong to one line of inheritance. -/
def areRelated (c : Catalog) (a b : String) : Bool :=
  c.isAssignable a b || c.isAssignable b a

/-- The property of that name, declared on the type or inherited. -/
def findProperty? (c : Catalog) (typeName name : String) : Option Property :=
  (c.chain typeName).findSome? (·.property? name)

/-- The navigation of that name, declared on the type or inherited. -/
def findNavigation? (c : Catalog) (typeName name : String) : Option Navigation :=
  (c.chain typeName).findSome? (·.navigation? name)

/-- All properties of a type, those of its base types first. -/
def properties (c : Catalog) (typeName : String) : List Property :=
  (c.chain typeName).reverse.flatMap (·.properties)

/-- All navigations of a type, those of its base types first. -/
def navigations (c : Catalog) (typeName : String) : List Navigation :=
  (c.chain typeName).reverse.flatMap (·.navigations)

/-! ## Downwards -/

/-- The types that derive directly from the named one, by name. -/
def children (c : Catalog) (name : String) : List EntityType :=
  c.types.filter (·.base = some name)

/-- The types of `level`, then those one step below, and so on for `depth` levels. -/
def descend (c : Catalog) : (depth : Nat) → List EntityType → List EntityType
  | 0, _ => []
  | depth + 1, level => level ++ descend c depth (level.flatMap fun t => c.children t.name)

/-- All types that derive from the named one, nearer ones first. -/
def descendants (c : Catalog) (name : String) : List EntityType :=
  c.descend c.types.length (c.children name)

/-- The type with the names of the types below it. -/
def linked (c : Catalog) (t : EntityType) : EntityType :=
  { t with below := (c.descendants t.name).map (·.name) }

/-- The catalog in which every type has the names of those below it. -/
def link (c : Catalog) : Catalog := c.mapTypes c.linked

/-- The types of which the named one has the names below it. -/
def derived (c : Catalog) (name : String) : List EntityType :=
  match c.find? name with
  | none => []
  | some t => t.below.filterMap c.find?

/-- Whether the type has a base type or is one. -/
def isPolymorphic (_ : Catalog) (t : EntityType) : Bool := t.isDerived || !t.below.isEmpty

/-! ## Checking the base types -/

/-- The type's chain of base types ends, and inside the catalog. -/
def checkBase (c : Catalog) (t : EntityType) : Except SchemaError Unit :=
  match (c.chain t.name).getLast? with
  | none => .ok ()
  | some last =>
    match last.base with
    | none => .ok ()
    | some base =>
      if c.contains base then .error (.cyclicBaseType t.name)
      else .error (.unknownBaseType last.name base)

/-- Every chain of base types ends, and inside the catalog. -/
def checkBases (c : Catalog) : Except SchemaError Unit := c.types.forM c.checkBase

end Catalog

end Odm
