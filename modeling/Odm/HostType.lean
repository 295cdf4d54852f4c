/-!
# Host types

The type of a value in the host program: scalars, enumerations, nullable values,
entity types by name, other classes, and the sequence types. Queries are written
over host types; a *mapping* says that documents can hold values of a type as
they are (`HostType.isMappable`).
-/

namespace Odm

/-- The type of a value in the host program. -/
inductive HostType where
  | bool
  | byte
  | sbyte
  | char
  | int16
  | uint16
  | int32
  | uint32
  | int64
  | uint64
  | single
  | double
  | decimal
  | string
  | objectId
  | guid
  | dateTime
  | bytes
  /-- The type every other type converts to. -/
  | object
  /-- An enumeration with the integral type that holds its values. -/
  | enum (name : String) (underlying : HostType)
  /-- The common base of all enumerations. -/
  | enumBase
  | nullable (inner : HostType)
  /-- An entity type of the schema, by name. -/
  | entity (name : String)
  /-- Any other class, by name. -/
  | named (name : String)
  /-- A type made up for an object construction. -/
  | anonymous (name : String)
  /-- The sequence interface. -/
  | sequence (element : HostType)
  /-- The collection interface. -/
  | collection (element : HostType)
  | list (element : HostType)
  | array (element : HostType)
  deriving DecidableEq, Repr, Inhabited

namespace HostType

/-- The nullable form of a type; a nullable type is its own nullable form. -/
def toNullable : HostType → HostType
  | .nullable inner => .nullable inner
  | type => .nullable type

/-- The type without one level of nullability. -/
def unwrap : HostType → HostType
  | .nullable inner => inner
  | type => type

def isNullable : HostType → Bool
  | .nullable _ => true
  | _ => false

def isInterface : HostType → Bool
  | .sequence _ | .collection _ => true
  | _ => false

def isEnum : HostType → Bool
  | .enum _ _ => true
  | _ => false

/-- The integral type behind an enumeration. -/
def underlying? : HostType → Option HostType
  | .enum _ underlying => some underlying
  | _ => none

/-- The small types that arithmetic widens to a 32-bit integer. -/
def widensToInt32 : HostType → Bool
  | .byte | .sbyte | .char | .int16 | .uint16 => true
  | _ => false

def isIntegral : HostType → Bool
  | .byte | .sbyte | .int16 | .uint16 | .int32 | .uint32 | .int64 | .uint64 => true
  | _ => false

def isNumeric (type : HostType) : Bool :=
  type.isIntegral || match type with
    | .single | .double | .decimal => true
    | _ => false

/-- Scalars, enumerations and nullable types, as opposed to references. -/
def isValueType (type : HostType) : Bool :=
  match type with
  | .bool | .char | .objectId | .guid | .dateTime | .enum _ _ | .nullable _ => true
  | type => type.isNumeric

/-- The element type of a sequence-like type. -/
def element? : HostType → Option HostType
  | .sequence e | .collection e | .list e | .array e => some e
  | _ => none

/-- Whether values of the type can be used through the given interface type. -/
def implements (type iface : HostType) : Bool :=
  match iface, type with
  | .sequence element, .collection e => decide (e = element)
  | .sequence element, .list e => decide (e = element)
  | .sequence element, .array e => decide (e = element)
  | .sequence element, .string => decide (element = .char)
  | .collection element, .list e => decide (e = element)
  | .collection element, .array e => decide (e = element)
  | _, _ => false

/-- The types with a membership test of their own. -/
def implementsList : HostType → Bool
  | .list _ | .array _ | .collection _ => true
  | _ => false

/-- Whether documents can hold values of the type as they are. -/
def isMappable : HostType → Bool
  | .string | .bytes | .objectId => true
  | .nullable inner => inner.isMappable
  | .sequence e | .collection e | .list e | .array e => e.isMappable
  | type => type.isValueType

/-- The name of a type as it is shown in texts. -/
def text : HostType → String
  | .bool => "bool"
  | .byte => "byte"
  | .sbyte => "sbyte"
  | .char => "char"
  | .int16 => "short"
  | .uint16 => "ushort"
  | .int32 => "int"
  | .uint32 => "uint"
  | .int64 => "long"
  | .uint64 => "ulong"
  | .single => "float"
  | .double => "double"
  | .decimal => "decimal"
  | .string => "string"
  | .objectId => "ObjectId"
  | .guid => "Guid"
  | .dateTime => "DateTime"
  | .bytes => "byte[]"
  | .object => "object"
  | .enum name _ => name
  | .enumBase => "Enum"
  | .nullable inner => inner.text ++ "?"
  | .entity name | .named name | .anonymous name => name
  | .sequence e => "IEnumerable<" ++ e.text ++ ">"
  | .collection e => "ICollection<" ++ e.text ++ ">"
  | .list e => "List<" ++ e.text ++ ">"
  | .array e => e.text ++ "[]"

end HostType

/-- How values of a host type are stored. Every mappable type is stored as it is, so a
mapping only records the type it was found for. -/
structure Mapping where
  type : HostType
  deriving DecidableEq, Repr, Inhabited

/-- The mapping of a type, if documents can hold its values. -/
def HostType.mapping? (type : HostType) : Option Mapping :=
  if type.isMappable then some ⟨type⟩ else none

end Odm
