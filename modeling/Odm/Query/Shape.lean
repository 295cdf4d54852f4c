import Odm.Query.Scalar

/-!
# Shapes

Besides scalars a query deals with whole documents: an *entity shape* is a document or an
embedded object seen as an entity type, an *array shape* is an array of embedded objects.
A *node* is any of the three.
-/

namespace Odm

/-- A document or embedded object, seen as an entity type. -/
structure EntityShape where
  entityType : String
  access : Access
  deriving DecidableEq, Repr

namespace EntityShape

/-- The shape of a document of the type, under an alias. -/
def root (entityType documentAlias : String) : EntityShape :=
  ⟨entityType, .root entityType documentAlias⟩

/-- The same object seen as another type. -/
def cast (shape : EntityShape) (entityType : String) : EntityShape :=
  ⟨entityType, shape.access⟩

def type (shape : EntityShape) : HostType := .entity shape.entityType

end EntityShape

/-- An array of objects embedded under a field. -/
structure ArrayShape where
  navigation : Navigation
  /-- The field that holds the array. -/
  name : String
  /-- The object that has the field. -/
  access : Access
  /-- What each item of the array looks like. -/
  inner : EntityShape
  deriving DecidableEq, Repr

namespace ArrayShape

/-- The fields from the document down to the array. -/
def path (shape : ArrayShape) : List String := shape.access.path ++ [shape.name]

def type (shape : ArrayShape) : HostType := .collection (.entity shape.navigation.target)

end ArrayShape

/-- Any part of a query. -/
inductive Node where
  | scalar (s : Scalar)
  | entity (shape : EntityShape)
  | array (shape : ArrayShape)
  deriving DecidableEq, Repr

namespace Node

def type : Node → HostType
  | .scalar s => s.type
  | .entity shape => shape.type
  | .array shape => shape.type

/-- The field or alias that a node can be named after. -/
def name? : Node → Option String
  | .scalar (.field f) => some f.name
  | .scalar _ => none
  | .entity shape => some shape.access.name
  | .array shape => some shape.name

def scalar? : Node → Option Scalar
  | .scalar s => some s
  | _ => none

def text : Node → String
  | .scalar s => s.text
  | .entity shape => shape.access.text
  | .array shape => Access.subscript shape.access.text shape.name

end Node

end Odm
