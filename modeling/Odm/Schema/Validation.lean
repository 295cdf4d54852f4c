import Odm.Schema.Catalog
import Odm.Text.Blank

/-!
# Validation

The checks that a catalog has to pass after its conventions have run. They are made one
after the other, each over the types in the order of their names, and the first failure
is reported:

* key properties are declared on the type that lists them;
* documents can hold the values of all properties;
* owned types have an owner, and only owning navigations lead to them;
* hierarchy roots are stored in different collections;
* the types of a hierarchy that can have entities have different discriminators.
-/

namespace Odm.Catalog

/-- The key properties of a type are declared on it. -/
def checkKey (t : EntityType) : Except SchemaError Unit :=
  (t.key.getD []).forM fun name =>
    if (t.property? name).isSome then .ok () else .error (.unknownKeyProperty t.name name)

/-- Documents can hold the values of a type's own properties. -/
def checkMappings (t : EntityType) : Except SchemaError Unit :=
  t.properties.forM fun p =>
    if p.type.isMappable then .ok () else .error (.propertyNotMapped t.name p.name p.type)

/-- A navigation leads to an owned type only if it is the one that owns it. -/
def checkNavigation (c : Catalog) (t : EntityType) (n : Navigation) : Except SchemaError Unit :=
  if (c.find? n.target).any (·.isOwned) && !n.isOwnership then
    .error (.inverseToOwnedType t.name n.name n.target)
  else .ok ()

/-- An owned type has an owner, and its navigations lead to owned types by owning them. -/
def checkOwnership (c : Catalog) (t : EntityType) : Except SchemaError Unit := do
  if t.isOwned && t.ownership.isNone then .error (.ownedTypeWithoutOwner t.name)
  t.navigations.forM (c.checkNavigation t)

/-- The hierarchy roots stored in documents of their own. -/
def collectionTypes (c : Catalog) : List EntityType :=
  c.types.filter fun t => t.base.isNone && !t.isOwned

/-- The collections of the given types differ from each other and from those in `seen`. -/
def checkCollections (seen : List String) : List EntityType → Except SchemaError Unit
  | [] => .ok ()
  | t :: rest =>
    if t.collectionName ∈ seen then .error (.duplicateCollectionName t.collectionName t.name)
    else checkCollections (t.collectionName :: seen) rest

/-- The types that mark their documents with a discriminator. -/
def discriminatedTypes (c : Catalog) : List EntityType :=
  c.types.filter fun t => c.isPolymorphic t && !t.isAbstract

/-- The chosen discriminator of a type, unless it is blank. -/
def discriminator? (t : EntityType) : Option String :=
  t.discriminatorValue.filter fun d => !isBlank d

/-- The discriminators of the given types are chosen, and differ within each hierarchy and
from those in `seen`. -/
def checkDiscriminators (c : Catalog) (seen : List (String × String)) :
    List EntityType → Except SchemaError Unit
  | [] => .ok ()
  | t :: rest =>
    match discriminator? t with
    | none => .error (.missingDiscriminator t.name)
    | some d =>
      let root := c.rootName t.name
      if (root, d) ∈ seen then .error (.duplicateDiscriminator d t.name root)
      else checkDiscriminators c ((root, d) :: seen) rest

/-- All checks, in their order. -/
def validate (c : Catalog) : Except SchemaError Unit := do
  c.types.forM checkKey
  c.types.forM checkMappings
  c.types.forM c.checkOwnership
  checkCollections [] c.collectionTypes
  c.checkDiscriminators [] c.discriminatedTypes

end Odm.Catalog
