import Odm.Generation.Generator
import Odm.Schema.Member
import Odm.Update.Error

/-!
# Generated values

A value source keeps one generator for each property, made when the first value is needed.
Values are generated for the properties of an entry that ask for it: on add where none is
set, or on every write. A null, a zero, an empty text and an id of zeros count as not set.
-/

namespace Odm

/-- A property by its declaring type and its name. -/
abbrev PropertyKey := String × String

/-- The generators of the properties that needed one so far. -/
structure ValueSource where
  generators : List (PropertyKey × Generator) := []
  entropy : Entropy := {}

/-- Whether a value counts as not set. -/
def Value.isUnset : Value → Bool
  | .null => true
  | .num (.whole n) => n = 0
  | .str s => s.toList.all fun c => c = '0' || c = '-'
  | _ => false

/-- Whether the entry gets a new value for the property before it is written. -/
def Entry.needsValue (e : Entry) (adding : Bool) (p : Property) : Bool :=
  match p.generation with
  | .never => false
  | .onAdd => adding && (e.current.get? p.name).all Value.isUnset
  | .onAddOrUpdate => true

namespace ValueSource

/-- The generator of a property: the one it has, else a new one for its type. -/
def generator? (source : ValueSource) (p : Property) : Option (Generator × Entropy) :=
  match source.generators.lookup (p.declaringType, p.name) with
  | some g => some (g, source.entropy)
  | none => Generator.ofType? p.type.unwrap source.entropy

/-- The source with a generator for a property, in the place of any other one. -/
def keep (source : ValueSource) (key : PropertyKey) (g : Generator) : ValueSource :=
  { source with generators := (key, g) :: source.generators.filter fun known => known.1 ≠ key }

/-- The next value of a property. -/
def next (source : ValueSource) (p : Property) : Except UpdateError (Value × ValueSource) :=
  match source.generator? p with
  | none => .error (.noValueGenerator p.declaringType p.name p.type.unwrap)
  | some (g, entropy) =>
    let (v, g, entropy) := g.next entropy
    .ok (v, { source.keep (p.declaringType, p.name) g with entropy := entropy })

/-- An entry with new values for those of the properties that need one, up to the first that
has no generator. -/
def fill (source : ValueSource) (adding : Bool) (e : Entry) :
    List Property → Except UpdateError Unit × Entry × ValueSource
  | [] => (.ok (), e, source)
  | p :: rest =>
    if e.needsValue adding p then
      match source.next p with
      | .error err => (.error err, e, source)
      | .ok (v, source) => source.fill adding (e.setValue p.name v) rest
    else source.fill adding e rest

end ValueSource

end Odm
