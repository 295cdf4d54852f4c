import Odm.HostType

/-!
# Schema errors

What can be wrong with a model, and what a lookup in a finished schema can miss.
-/

namespace Odm

inductive SchemaError where
  | unknownEntityType (name : String)
  | unknownBaseType (entityType base : String)
  | cyclicBaseType (entityType : String)
  | unknownNavigationTarget (entityType navigation target : String)
  | unknownKeyProperty (entityType property : String)
  | duplicateCollectionName (collection entityType : String)
  | missingDiscriminator (entityType : String)
  | duplicateDiscriminator (discriminator entityType root : String)
  | propertyNotMapped (entityType property : String) (type : HostType)
  | ownedTypeWithoutOwner (entityType : String)
  | multipleOwners (entityType first second : String)
  | inverseToOwnedType (entityType navigation owned : String)
  | notACollectionType (entityType : String)
  deriving DecidableEq, Repr

/-- The text shown for a schema error. -/
def SchemaError.message : SchemaError → String
  | .unknownEntityType name => "Unknown entity type: " ++ name
  | .unknownBaseType entityType base =>
    "Entity type '" ++ entityType ++ "' derives from unknown base type '" ++ base ++ "'"
  | .cyclicBaseType entityType =>
    "Entity type '" ++ entityType ++ "' is its own base type through its inheritance chain"
  | .unknownNavigationTarget entityType navigation target =>
    "Navigation '" ++ entityType ++ "." ++ navigation ++ "' targets unknown entity type '"
      ++ target ++ "'"
  | .unknownKeyProperty entityType property =>
    "Key property '" ++ property ++ "' is not defined on entity type '" ++ entityType ++ "'"
  | .duplicateCollectionName collection entityType =>
    "Duplicate collection name \"" ++ collection ++ "\" defined on entity type \""
      ++ entityType ++ "\"."
  | .missingDiscriminator entityType =>
    "Missing discriminator value for entity type " ++ entityType ++ "."
  | .duplicateDiscriminator discriminator entityType root =>
    "Duplicate discriminator value " ++ discriminator ++ " for root entity type " ++ root
      ++ " (defined on " ++ entityType ++ ")."
  | .propertyNotMapped entityType property type =>
    "Property '" ++ entityType ++ "." ++ property ++ "' of type '" ++ type.text
      ++ "' has no document type mapping"
  | .ownedTypeWithoutOwner entityType =>
    "Owned entity type '" ++ entityType ++ "' is not the target of any owning navigation"
  | .multipleOwners entityType first second =>
    "Owned entity type '" ++ entityType ++ "' is owned by both '" ++ first ++ "' and '"
      ++ second ++ "'"
  | .inverseToOwnedType entityType navigation owned =>
    "Navigation '" ++ entityType ++ "." ++ navigation ++ "' references owned entity type '"
      ++ owned ++ "' without owning it"
  | .notACollectionType entityType =>
    "Entity type '" ++ entityType ++ "' is embedded and is not bound to a collection"

/-- The name by which tools tell schema errors apart. -/
def SchemaError.code : SchemaError → String
  | .unknownEntityType _ => "Schema.UnknownEntityType"
  | .unknownBaseType _ _ => "Schema.UnknownBaseType"
  | .cyclicBaseType _ => "Schema.CyclicBaseType"
  | .unknownNavigationTarget _ _ _ => "Schema.UnknownNavigationTarget"
  | .unknownKeyProperty _ _ => "Schema.UnknownKeyProperty"
  | .duplicateCollectionName _ _ => "Schema.DuplicateCollectionName"
  | .missingDiscriminator _ => "Schema.MissingDiscriminator"
  | .duplicateDiscriminator _ _ _ => "Schema.DuplicateDiscriminator"
  | .propertyNotMapped _ _ _ => "Schema.PropertyNotMapped"
  | .ownedTypeWithoutOwner _ => "Schema.OwnedTypeWithoutOwner"
  | .multipleOwners _ _ _ => "Schema.MultipleOwners"
  | .inverseToOwnedType _ _ _ => "Schema.InverseToOwnedType"
  | .notACollectionType _ => "Schema.NotACollectionType"

end Odm
