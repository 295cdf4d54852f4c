import Odm.HostType

/-!
# Members of entity types

An entity type has scalar *properties*, each stored in a field of its document,
and *navigations* to other entity types. A navigation that owns its target embeds
the target's document in the document of its owner; the target then records the
*ownership*.
-/

namespace Odm

/-- When the value of a property is generated. -/
inductive Generation where
  | never
  | onAdd
  | onAddOrUpdate
  deriving DecidableEq, Repr, Inhabited

/-- A scalar property of an entity type. -/
structure Property where
  name : String
  /-- The entity type that declares the property. -/
  declaringType : String
  type : HostType
  /-- The field that holds the value; the empty name marks a property without a field. -/
  elementName : Option String
  /-- Kept by the mapper, absent from the entity's class. -/
  isShadow : Bool
  /-- Compared with the stored value before a replace or delete. -/
  isConcurrencyToken : Bool
  /-- The strategy that was chosen, if any. -/
  generation? : Option Generation
  deriving DecidableEq, Repr, Inhabited

namespace Property

/-- The field that holds the value: the chosen one, else the property's own name. -/
def element (p : Property) : String := p.elementName.getD p.name

/-- Whether documents have a field for the property. -/
def isPersisted (p : Property) : Bool := !p.element.isEmpty

/-- The strategy in force. -/
def generation (p : Property) : Generation := p.generation?.getD .never

/-- The property's name together with its declaring type's. -/
def fullName (p : Property) : String := p.declaringType ++ "." ++ p.name

end Property

/-- A navigation from one entity type to another. -/
structure Navigation where
  name : String
  /-- The entity type that declares the navigation. -/
  declaringType : String
  target : String
  /-- Leads to many entities instead of one. -/
  isCollection : Bool
  /-- The target is embedded in the declaring type's documents. -/
  isOwnership : Bool
  deriving DecidableEq, Repr, Inhabited

/-- The navigation's name together with its declaring type's. -/
def Navigation.fullName (n : Navigation) : String := n.declaringType ++ "." ++ n.name

/-- The one relationship through which an embedded type is owned. -/
structure Ownership where
  owner : String
  /-- The navigation of the owner that embeds the type. -/
  navigation : String
  isCollection : Bool
  deriving DecidableEq, Repr, Inhabited

end Odm
