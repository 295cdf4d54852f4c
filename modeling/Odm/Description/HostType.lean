import Odm.Description.Record
import Odm.HostType

/-!
# Descriptions of host types

Scalar types are described by a code, composed types by a record that names the composition.
`HostType.ofDescription?` reads a description back.
-/

namespace Odm.HostType

/-- The types that have no parts. -/
def atoms : List HostType := [
  .bool, .byte, .sbyte, .char, .int16, .uint16, .int32, .uint32, .int64, .uint64, .single,
  .double, .decimal, .string, .objectId, .guid, .dateTime, .bytes, .object, .enumBase]

def describe : HostType → Value
  | .bool => .str "bool"
  | .byte => .str "byte"
  | .sbyte => .str "sbyte"
  | .char => .str "char"
  | .int16 => .str "int16"
  | .uint16 => .str "uint16"
  | .int32 => .str "int32"
  | .uint32 => .str "uint32"
  | .int64 => .str "int64"
  | .uint64 => .str "uint64"
  | .single => .str "single"
  | .double => .str "double"
  | .decimal => .str "decimal"
  | .string => .str "string"
  | .objectId => .str "objectId"
  | .guid => .str "guid"
  | .dateTime => .str "dateTime"
  | .bytes => .str "bytes"
  | .object => .str "object"
  | .enumBase => .str "enumBase"
  | .enum name underlying => .obj [("enum", .str name), ("of", underlying.describe)]
  | .nullable inner => .obj [("nullable", inner.describe)]
  | .entity name => .obj [("entity", .str name)]
  | .named name => .obj [("class", .str name)]
  | .anonymous name => .obj [("anon", .str name)]
  | .sequence element => .obj [("seq", element.describe)]
  | .collection element => .obj [("coll", element.describe)]
  | .list element => .obj [("list", element.describe)]
  | .array element => .obj [("array", element.describe)]

/-- The type without parts that has the code. -/
def ofCode? (code : String) : Option HostType :=
  atoms.find? fun type => decide (type.describe = .str code)

/-- The type that a value describes. -/
def ofDescription? : Value → Option HostType
  | .str code => ofCode? code
  | .obj [("enum", .str name), ("of", underlying)] => (ofDescription? underlying).map (.enum name)
  | .obj [("nullable", inner)] => (ofDescription? inner).map .nullable
  | .obj [("entity", .str name)] => some (.entity name)
  | .obj [("class", .str name)] => some (.named name)
  | .obj [("anon", .str name)] => some (.anonymous name)
  | .obj [("seq", element)] => (ofDescription? element).map .sequence
  | .obj [("coll", element)] => (ofDescription? element).map .collection
  | .obj [("list", element)] => (ofDescription? element).map .list
  | .obj [("array", element)] => (ofDescription? element).map .array
  | _ => none

end Odm.HostType
