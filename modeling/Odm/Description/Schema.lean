import Odm.Description.HostType
import Odm.Schema

/-!
# Descriptions of schemas

The description of an entity type has its settings as they are kept, what they amount to in
the schema, and where the type stands in its hierarchy. Lookups that can fail are described
by their error where they do.
-/

namespace Odm

def SchemaError.describe (e : SchemaError) : Value := .failure e.code e.message

/-- The outcome of a lookup. -/
def describeLookup {α : Type} (f : α → Value) : Except SchemaError α → Value
  | .ok a => f a
  | .error e => e.describe

def Generation.describe : Generation → Value
  | .never => .str "never"
  | .onAdd => .str "add"
  | .onAddOrUpdate => .str "update"

def Property.describe (p : Property) : Value :=
  .record [
    ("n", .str p.name),
    ("decl", .str p.declaringType),
    ("t", p.type.describe),
    ("el", .option .str p.elementName),
    ("element", .str p.element),
    ("persisted", .bool p.isPersisted),
    ("sh", .bool p.isShadow),
    ("ct", .bool p.isConcurrencyToken),
    ("vg", .option Generation.describe p.generation?),
    ("generation", p.generation.describe)]

def Navigation.describe (n : Navigation) : Value :=
  .record [
    ("n", .str n.name),
    ("decl", .str n.declaringType),
    ("to", .str n.target),
    ("many", .bool n.isCollection),
    ("own", .bool n.isOwnership)]

def Ownership.describe (o : Ownership) : Value :=
  .arr [.str o.owner, .str o.navigation, .bool o.isCollection]

/-- An entity type of the schema. -/
def Schema.describeType (s : Schema) (t : EntityType) : Value :=
  .record [
    ("n", .str t.name),
    ("base", .option .str t.base),
    ("abstract", .bool t.isAbstract),
    ("owned", .bool t.isOwned),
    ("complex", .bool t.isComplex),
    ("coll", .option .str t.collection),
    ("disc", .option .str t.discriminatorValue),
    ("cont", .option .str t.containingName),
    ("key", .option .strs t.key),
    ("ownership", .option Ownership.describe t.ownership),
    ("props", .items Property.describe t.properties),
    ("navs", .items Navigation.describe t.navigations),
    ("derived", .strs ((s.derived t.name).map (·.name))),
    ("is_derived", .bool t.isDerived),
    ("all_props", .strs ((s.properties t.name).map (·.fullName))),
    ("all_navs", .strs ((s.navigations t.name).map (·.fullName))),
    ("chain", .strs ((s.chain t.name).map (·.name))),
    ("root", .str (s.rootName t.name)),
    ("key_elements", .strs ((s.keyProperties t.name).map (·.element))),
    ("is_root_document", .bool (s.isDocumentRoot t.name)),
    ("coll_type", describeLookup (fun root => .str root.name) (s.collectionRoot t.name)),
    ("coll_name", describeLookup .str (s.collectionName t.name)),
    ("polymorphic", .bool (s.isPolymorphic t)),
    ("discriminator", .str t.discriminator),
    ("containing", .option .str t.embeddedName?)]

end Odm
