import Odm.Schema.Member

/-!
# Entity types

An entity type is stored in documents of its own or embedded in those of its owner.
Types derive from at most one base type and inherit its members. The settings that
an author may leave open are optional; conventions fill them in.
-/

namespace Odm

/-- A type of entities, known by its name. -/
structure EntityType where
  name : String
  base : Option String := none
  isAbstract : Bool := false
  /-- Embedded in the documents of an owner. -/
  isOwned : Bool := false
  /-- Embedded or without a key, and so not queried by itself. -/
  isComplex : Bool := false
  collection : Option String := none
  discriminatorValue : Option String := none
  /-- The field that holds an embedded document of this type. -/
  containingName : Option String := none
  /-- The names of the key properties. -/
  key : Option (List String) := none
  ownership : Option Ownership := none
  properties : List Property := []
  navigations : List Navigation := []
  /-- The names of the types below it, nearer ones first; linked when a model is finished. -/
  below : List String := []
  deriving DecidableEq, Repr, Inhabited

namespace EntityType

/-- The type with one more property, declared on it. -/
def addProperty (t : EntityType) (p : Property) : EntityType :=
  { t with properties := t.properties ++ [{ p with declaringType := t.name }] }

/-- The type with one more navigation, declared on it. -/
def addNavigation (t : EntityType) (n : Navigation) : EntityType :=
  { t with navigations := t.navigations ++ [{ n with declaringType := t.name }] }

/-- The property of that name declared on the type itself. -/
def property? (t : EntityType) (name : String) : Option Property :=
  t.properties.find? (·.name = name)

/-- The navigation of that name declared on the type itself. -/
def navigation? (t : EntityType) (name : String) : Option Navigation :=
  t.navigations.find? (·.name = name)

def isDerived (t : EntityType) : Bool := t.base.isSome

/-- The value that marks documents of the type: the chosen one, else its name. -/
def discriminator (t : EntityType) : String := t.discriminatorValue.getD t.name

/-- The field that holds the type's documents inside their owner: the chosen one, else
the name of the owning navigation. -/
def embeddedName? (t : EntityType) : Option String :=
  t.containingName <|> t.ownership.map (·.navigation)

/-- The collection of the type when it is stored in documents of its own. -/
def collectionName (t : EntityType) : String := t.collection.getD t.name

end EntityType

end Odm
