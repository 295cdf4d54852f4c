import Odm.Query.Binding

/-!
# Binding with memory

While one query is compiled, the same members are bound again and again. A binding
session keeps the shapes it has met and remembers for each of them which field a property
was bound to and which shape a navigation led to, under the declaring type and the name of
the member. Binding a navigation twice leads to the same shape, with all that this shape
remembers.

Shapes are numbered in the order in which the session met them.
-/

namespace Odm

/-- The declaring type and the name of a member. -/
abbrev MemberKey := String × String

/-- What a member was bound to; shapes of the session are given by number. -/
inductive Bound where
  | field (f : Field)
  | entity (shape : Nat)
  | array (array : ArrayShape) (inner : Nat)
  deriving DecidableEq, Repr

/-- A shape of a session with what it remembers. -/
structure BoundShape where
  shape : EntityShape
  fields : List (MemberKey × Field) := []
  navigations : List (MemberKey × Bound) := []
  deriving DecidableEq, Repr

/-- The shapes met while a query is compiled. -/
structure BindingSession where
  shapes : List BoundShape := []
  deriving DecidableEq, Repr

namespace BindingSession

/-- The shape of that number. -/
def shape? (session : BindingSession) (number : Nat) : Option BoundShape :=
  session.shapes[number]?

/-- The session with one more shape, and the number it got. -/
def add (session : BindingSession) (shape : EntityShape) : Nat × BindingSession :=
  (session.shapes.length, ⟨session.shapes ++ [{ shape := shape }]⟩)

/-- The session with one of its shapes changed. -/
def modify (session : BindingSession) (number : Nat) (f : BoundShape → BoundShape) :
    BindingSession :=
  ⟨session.shapes.modify number f⟩

/-- The part of a query that a bound member stands for. -/
def node? (session : BindingSession) : Bound → Option Node
  | .field f => some (.scalar (.field f))
  | .entity number => (session.shape? number).map fun bound => .entity bound.shape
  | .array array _ => some (.array array)

/-- A property bound on a shape, to the field remembered for it if there is one. -/
def bindProperty (s : Schema) (session : BindingSession) (number : Nat) (p : Property)
    (onClient : Bool) : Except QueryError (Option Field × BindingSession) :=
  match session.shape? number with
  | none => .ok (none, session)
  | some bound => do
    bound.shape.checkMember s p.declaringType p.name
    let key := (p.declaringType, p.name)
    match bound.fields.lookup key with
    | some f => return (f.delivered? onClient, session)
    | none =>
      let f := Field.ofProperty p bound.shape.access
      return (f.delivered? onClient,
        session.modify number fun b => { b with fields := (key, f) :: b.fields })

/-- An array embedded in the object of a shape. Its items have the given shape, or else one
of their own. -/
def addArray (s : Schema) (session : BindingSession) (access : Access) (n : Navigation)
    (inner : Option Nat) : Except QueryError (Bound × BindingSession) := do
  let given := inner.bind fun number =>
    (session.shape? number).map fun bound => (number, bound.shape)
  let array ← ArrayShape.ofNavigation s n access (given.map Prod.snd)
  match given with
  | some (number, _) => return (.array array number, session)
  | none =>
    let (number, session) := session.add array.inner
    return (.array array number, session)

/-- A navigation bound on a shape, to what is remembered for it if there is anything. -/
def bindNavigation (s : Schema) (session : BindingSession) (number : Nat) (n : Navigation) :
    Except QueryError (Option Bound × BindingSession) :=
  match session.shape? number with
  | none => .ok (none, session)
  | some bound => do
    bound.shape.checkMember s n.declaringType n.name
    let key := (n.declaringType, n.name)
    match bound.navigations.lookup key with
    | some known => return (some known, session)
    | none =>
      let (found, session) ←
        if n.isCollection then session.addArray s bound.shape.access n none
        else do
          let name ← s.embeddedName n
          let (target, session) :=
            session.add ⟨n.target, .object n name bound.shape.access⟩
          pure (Bound.entity target, session)
      return (some found, session.modify number fun b =>
        { b with navigations := (key, found) :: b.navigations })

/-- The member of that name bound on a shape, looked up as `EntityShape.bindMember` does. -/
def bindMember (s : Schema) (session : BindingSession) (number : Nat) (name : String)
    (requested : Option HostType) (onClient : Bool) :
    Except QueryError (Option Bound × BindingSession) :=
  match session.shape? number with
  | none => .ok (none, session)
  | some bound => do
    let typeName ← bound.shape.lookupType s requested
    match s.findProperty? typeName name with
    | some p =>
      let (f, session) ← session.bindProperty s number p onClient
      return (f.map Bound.field, session)
    | none =>
      match s.findNavigation? typeName name with
      | some n => session.bindNavigation s number n
      | none => return (none, session)

end BindingSession

end Odm
