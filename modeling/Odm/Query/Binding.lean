import Odm.Query.Error
import Odm.Query.Shape
import Odm.Schema

/-!
# Member binding

A member of an entity shape is bound to what it stands for in the document: a property to
its field, a navigation to the object or the array it embeds. The member must be declared
in the line of inheritance of the shape's type, and a navigation must embed its target.

A member is looked up by name on the shape's type, or on a type derived from it when such
a type is asked for, so that members declared further down can be reached.
-/

namespace Odm

/-- The field that holds the target of a navigation inside its owner. -/
def Schema.embeddedName (s : Schema) (n : Navigation) : Except QueryError String := do
  let target ← QueryError.ofSchema (s.entityType n.target)
  match target.embeddedName? with
  | some name => .ok name
  | none => .error (.notEmbedded n.declaringType n.name)

/-- The array that a navigation embeds in the object at `access`; its items have the shape
`inner`, or else one of their own with an empty alias. -/
def ArrayShape.ofNavigation (s : Schema) (n : Navigation) (access : Access)
    (inner : Option EntityShape) : Except QueryError ArrayShape := do
  let name ← s.embeddedName n
  return ⟨n, name, access, inner.getD (.root n.target "")⟩

/-- The field of a property in the object at `access`. -/
def Field.ofProperty (p : Property) (access : Access) : Field :=
  ⟨p, p.element, access, p.type.mapping?⟩

/-- A field, unless it has no element and the document has to deliver it. -/
def Field.delivered? (onClient : Bool) (f : Field) : Option Field :=
  if !onClient && f.name.isEmpty then none else some f

namespace EntityShape

/-- The declaring type of a member belongs to the line of inheritance of the shape's type. -/
def checkMember (s : Schema) (shape : EntityShape) (declaringType member : String) :
    Except QueryError Unit :=
  if s.contains declaringType && s.areRelated shape.entityType declaringType then .ok ()
  else .error (.unrelatedMember shape.entityType (declaringType ++ "." ++ member))

/-- The field of a property; without client evaluation a property that has no field is
bound to nothing. -/
def bindProperty (s : Schema) (shape : EntityShape) (p : Property) (onClient : Bool) :
    Except QueryError (Option Field) := do
  shape.checkMember s p.declaringType p.name
  return (Field.ofProperty p shape.access).delivered? onClient

/-- What a navigation embeds: one object or an array of them. -/
def bindNavigation (s : Schema) (shape : EntityShape) (n : Navigation) :
    Except QueryError Node := do
  shape.checkMember s n.declaringType n.name
  if n.isCollection then
    return .array (← ArrayShape.ofNavigation s n shape.access none)
  else
    let name ← s.embeddedName n
    return .entity ⟨n.target, .object n name shape.access⟩

/-- The type on which a member is looked up when `requested` is asked for: the shape's own
type if it is of the requested type, else the nearest derived type that is. -/
def lookupType (s : Schema) (shape : EntityShape) (requested : Option HostType) :
    Except QueryError String :=
  match requested with
  | some (.entity name) => do
    let wanted ← QueryError.ofSchema (s.entityType name)
    if s.isAssignable wanted.name shape.entityType then return shape.entityType
    match (s.derived shape.entityType).find? fun t => s.isAssignable wanted.name t.name with
    | some t => return t.name
    | none => .error (.unrelatedEntityType shape.entityType wanted.name)
  | _ => .ok shape.entityType

/-- What the member of that name stands for, if there is one. -/
def bindMember (s : Schema) (shape : EntityShape) (name : String)
    (requested : Option HostType) (onClient : Bool) : Except QueryError (Option Node) := do
  let typeName ← shape.lookupType s requested
  match s.findProperty? typeName name with
  | some p => return (← shape.bindProperty s p onClient).map fun f => .scalar (.field f)
  | none =>
    match s.findNavigation? typeName name with
    | some n => return some (← shape.bindNavigation s n)
    | none => return none

end EntityShape

end Odm
