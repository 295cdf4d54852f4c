import Odm.Schema.Member

/-!
# Access paths

A field of a document is reached from the alias of the queried document through the
objects embedded in it. The alias itself is no part of the path inside the document.
-/

namespace Odm

/-- A document or an object embedded in it. -/
inductive Access where
  /-- The document known by an alias. -/
  | root (entityType documentAlias : String)
  /-- The object that a navigation embeds under a field of `parent`. -/
  | object (navigation : Navigation) (name : String) (parent : Access)
  deriving DecidableEq, Repr

namespace Access

/-- The alias of a document, or the field of an embedded object. -/
def name : Access → String
  | .root _ documentAlias => documentAlias
  | .object _ name _ => name

/-- The fields from the document down to this object. -/
def path : Access → List String
  | .root _ _ => []
  | .object _ name parent => parent.path ++ [name]

/-- Whether this is the document itself. -/
def isRoot : Access → Bool
  | .root _ _ => true
  | .object _ _ _ => false

/-- A field of an object as it is shown in texts. -/
def subscript (object name : String) : String := object ++ "[\"" ++ name ++ "\"]"

def text : Access → String
  | .root _ documentAlias => documentAlias
  | .object _ name parent => subscript parent.text name

end Access

/-- A scalar field of a document. -/
structure Field where
  property : Property
  /-- The element of the property, empty where it has none. -/
  name : String
  access : Access
  mapping : Option Mapping
  deriving DecidableEq, Repr

namespace Field

/-- The fields from the document down to this one. -/
def path (f : Field) : List String := f.access.path ++ [f.name]

def text (f : Field) : String := Access.subscript f.access.text f.name

end Field

end Odm
