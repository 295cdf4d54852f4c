import Odm.Schema.Catalog

/-!
# Schemas

A schema is a catalog that went through all conventions and checks, together with
the name of the field that holds discriminators. It says in which collection the
documents of a type are stored, which fields hold the key, and whether a type is
stored in documents of its own at all.
-/

namespace Odm

/-- A finished catalog of entity types. -/
structure Schema extends Catalog where
  /-- The field that tells the types of a hierarchy apart. -/
  discriminatorElement : String
  deriving DecidableEq, Repr, Inhabited

namespace Schema

/-- The key properties of a type, declared on the root of its hierarchy. -/
def keyProperties (s : Schema) (typeName : String) : List Property :=
  match s.root? typeName with
  | none => []
  | some root => (root.key.getD []).filterMap root.property?

/-- Whether entities of the type are stored in documents of their own. -/
def isDocumentRoot (s : Schema) (typeName : String) : Bool :=
  match s.root? typeName with
  | none => false
  | some root => !root.isOwned

/-- The hierarchy root whose collection holds the documents of a type. -/
def collectionRoot (s : Schema) (typeName : String) : Except SchemaError EntityType :=
  match s.root? typeName with
  | none => .error (.unknownEntityType typeName)
  | some root => if root.isOwned then .error (.notACollectionType typeName) else .ok root

/-- The collection that holds the documents of a type. -/
def collectionName (s : Schema) (typeName : String) : Except SchemaError String :=
  (s.collectionRoot typeName).map (·.collectionName)

end Schema

end Odm
