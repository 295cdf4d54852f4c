import Odm.Query.Mapping

/-!
# Methods and members of values

Calls of methods and accesses to members that no document stores are translated by rules.
A rule gets the translated instance, if there is one, and the translated arguments, and
makes a node of them or declines. Rules are tried in order and the first node counts.

Two families of methods are built in: equality tests and membership tests.
-/

namespace Odm

/-- Translates calls of some methods: instance, method and arguments. -/
abbrev MethodRule := Option Scalar → Method → List Scalar → Option Scalar

/-- Translates accesses to some members: instance, member name and its type. -/
abbrev MemberRule := Option Scalar → String → HostType → Option Scalar

namespace MethodRule

/-- The value behind a conversion to object. -/
def unboxed : Scalar → Scalar
  | .unary .convert operand .object _ => operand
  | s => s

/-- An equality test; values of different types are never equal. -/
def equate (left right : Scalar) : Option Scalar :=
  if left.type.unwrap = right.type.unwrap then left.combine .equal right
  else some (.literal (.bool false) .bool)

/-- Equality tests, of an instance with an argument or between two arguments. -/
def equals : MethodRule := fun object method arguments =>
  if method.name = "Equals" then
    match object, arguments with
    | some left, [right] => equate left (unboxed right)
    | none, [left, right] => equate (unboxed left) (unboxed right)
    | _, _ => none
  else none

/-- Membership tests, of sequences in general and of lists and collections. -/
def contains : MethodRule := fun object method arguments =>
  match object, arguments with
  | none, [values, item] =>
    if method.isSequenceContains then item.isIn values false else none
  | some values, [item] =>
    if method.name = "Contains" && method.declaringType.implementsList then
      item.isIn values false
    else none
  | _, _ => none

/-- A function of the document store, called with the instance and the arguments of every
method of the given name. -/
def byName (name function : String) (type : HostType) : MethodRule :=
  fun object method arguments =>
    if method.name = name then Scalar.call function (object.toList ++ arguments) type else none

/-- The first node that one of the rules makes. -/
def firstOf (rules : List MethodRule) : MethodRule := fun object method arguments =>
  rules.findSome? fun rule => rule object method arguments

/-- The given rules, followed by the built-in ones. -/
def withBuiltIn (rules : List MethodRule) : List MethodRule := rules ++ [equals, contains]

end MethodRule

namespace MemberRule

/-- A function of the document store, called with the instance of every access to a member
of the given name. -/
def byName (name function : String) (type : HostType) : MemberRule := fun object member _ =>
  if member = name then Scalar.call function object.toList type else none

/-- The first node that one of the rules makes. -/
def firstOf (rules : List MemberRule) : MemberRule := fun object member type =>
  rules.findSome? fun rule => rule object member type

end MemberRule

end Odm
