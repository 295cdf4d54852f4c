import Odm.Naming
import Odm.Schema.Catalog

/-!
# Conventions

A convention is one step in the completion of a model: it fills in what the author of
the model left open and keeps what was chosen. Conventions run in the order in which
they are listed, and `Convention.defaults` is the usual list. What a convention does is a
`CatalogStep`, and a caller can have other steps than these.

Only ownership can fail. It needs the targets of all navigations, and it does not let
two navigations embed the same type.
-/

namespace Odm

/-- What a convention does to a catalog, be it one of those below or a caller's own. -/
abbrev CatalogStep := Catalog → Except SchemaError Catalog

/-- The catalog after some steps, in their order. -/
def Catalog.run (c : Catalog) (steps : List CatalogStep) : Except SchemaError Catalog :=
  steps.foldlM (fun c step => step c) c

/-- The field of keys that consist of one property. -/
def defaultKeyElement : String := "_id"

/-- A step that fills in what a model leaves open. -/
inductive Convention where
  /-- Targets of owning navigations become owned and record their ownership. -/
  | ownership
  /-- A property named `Id` or after its type becomes the key. -/
  | keyDiscovery
  /-- Owned types lose their keys; owned and keyless types become complex. -/
  | ownedDocument
  /-- Single keys are stored under the key element; other names may go to camel case. -/
  | elementName (keyElement : String) (camelCase : Bool)
  /-- Collections are named after their types. -/
  | collectionName (naming : CollectionNaming)
  /-- Discriminators are the names of the types. -/
  | discriminator
  /-- Single keys of a type that can be generated are generated for new entities. -/
  | valueGeneration
  deriving DecidableEq, Repr

namespace Convention

def name : Convention → String
  | .ownership => "ownership"
  | .keyDiscovery => "key-discovery"
  | .ownedDocument => "owned-document"
  | .elementName _ _ => "element-name"
  | .collectionName _ => "collection-name"
  | .discriminator => "discriminator"
  | .valueGeneration => "value-generation"

/-- The usual conventions, with a choice of collection names. -/
def defaults (naming : CollectionNaming) : List Convention :=
  [.ownership, .keyDiscovery, .ownedDocument, .elementName defaultKeyElement false,
    .collectionName naming, .discriminator, .valueGeneration]

/-! ## Ownership -/

/-- The target of a navigation is in the catalog. -/
def checkTarget (c : Catalog) (n : Navigation) : Except SchemaError Unit :=
  if c.contains n.target then .ok ()
  else .error (.unknownNavigationTarget n.declaringType n.name n.target)

/-- The ownership that an owning navigation gives to its target. -/
def ownershipOf (n : Navigation) : Ownership := ⟨n.declaringType, n.name, n.isCollection⟩

/-- The target of an owning navigation with its ownership; no other navigation may
already own it. -/
def recordOwnership (c : Catalog) (n : Navigation) : Except SchemaError Catalog :=
  let owned := c.modify n.target fun t =>
    { t with isOwned := true, ownership := some (ownershipOf n) }
  match (c.find? n.target).bind (·.ownership) with
  | none => .ok owned
  | some first =>
    if first = ownershipOf n then .ok owned
    else .error (.multipleOwners n.target first.owner n.declaringType)

def applyOwnership (c : Catalog) : Except SchemaError Catalog := do
  let navigations := c.types.flatMap (·.navigations)
  navigations.forM (checkTarget c)
  (navigations.filter (·.isOwnership)).foldlM recordOwnership c

/-! ## The other conventions, type by type -/

/-- A name with its ASCII capitals lowered. -/
def lowered (s : String) : String := String.ofList (s.toList.map Char.toLower)

/-- Whether a property is named like a key of the type: `Id`, or the type's name and `Id`. -/
def namesKey (t : EntityType) (p : Property) : Bool :=
  let name := lowered p.name
  name = "id" || name = lowered t.name ++ "id"

/-- Key discovery on a type without base, owner and key. -/
def discoverKey (t : EntityType) : EntityType :=
  if t.key.isSome || t.base.isSome || t.isOwned then t
  else { t with key := (t.properties.find? (namesKey t)).map fun p => [p.name] }

/-- The key properties that exist only as shadow properties. -/
def shadowKeys (t : EntityType) : List String :=
  (t.key.getD []).filter fun name => (t.property? name).any (·.isShadow)

/-- An owned type loses its key, and with it the shadow properties of the key. -/
def embed (t : EntityType) : EntityType :=
  if t.isOwned then
    { t with
      key := none
      properties := t.properties.filter fun p => !(shadowKeys t).contains p.name
      isComplex := true }
  else if t.key.isNone && t.base.isNone then { t with isComplex := true }
  else t

/-- The name of the only key property. -/
def singleKey? (t : EntityType) : Option String :=
  match t.key with
  | some [name] => some name
  | _ => none

/-- The property with an element name, unless it has one. -/
def nameElement (key : Option String) (keyElement : String) (camelCase : Bool)
    (p : Property) : Property :=
  if p.elementName.isSome then p
  else if key = some p.name then { p with elementName := some keyElement }
  else if camelCase then { p with elementName := some (lowerCamelCase p.name) }
  else p

/-- Element names for all properties; a derived type's own key is not a key element. -/
def nameElements (keyElement : String) (camelCase : Bool) (t : EntityType) : EntityType :=
  let key := if t.base.isNone then singleKey? t else none
  { t with properties := t.properties.map (nameElement key keyElement camelCase) }

/-- A collection name for a hierarchy root stored in documents of its own. -/
def nameCollection (naming : CollectionNaming) (t : EntityType) : EntityType :=
  if t.base.isNone && !t.isOwned && t.collection.isNone then
    { t with collection := some (naming.collectionName t.name) }
  else t

def nameDiscriminator (t : EntityType) : EntityType :=
  { t with discriminatorValue := some t.discriminator }

/-- The types whose values the mapper can generate. -/
def isGenerated (type : HostType) : Bool :=
  match type.unwrap with
  | .objectId | .guid | .int16 | .int32 | .int64 => true
  | _ => false

/-- A key property without a strategy is generated for new entities. -/
def generateProperty (key : String) (p : Property) : Property :=
  if p.name = key && p.generation?.isNone && isGenerated p.type then
    { p with generation? := some .onAdd }
  else p

def generateKey (t : EntityType) : EntityType :=
  match singleKey? t with
  | none => t
  | some key =>
    if t.isOwned then t
    else { t with properties := t.properties.map (generateProperty key) }

/-- The step that a convention is. -/
def apply (convention : Convention) : CatalogStep := fun c =>
  match convention with
  | .ownership => applyOwnership c
  | .keyDiscovery => .ok (c.mapTypes discoverKey)
  | .ownedDocument => .ok (c.mapTypes embed)
  | .elementName keyElement camelCase => .ok (c.mapTypes (nameElements keyElement camelCase))
  | .collectionName naming => .ok (c.mapTypes (nameCollection naming))
  | .discriminator => .ok (c.mapTypes nameDiscriminator)
  | .valueGeneration => .ok (c.mapTypes generateKey)

/-- The catalog after a list of conventions, in their order. -/
def applyAll (conventions : List Convention) (c : Catalog) : Except SchemaError Catalog :=
  conventions.foldlM (fun c convention => convention.apply c) c

theorem run_map_apply (conventions : List Convention) (c : Catalog) :
    c.run (conventions.map apply) = applyAll conventions c := List.foldlM_map

end Convention

end Odm
