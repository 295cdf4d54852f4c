import Odm.Host.Expr
import Odm.Table

/-!
# Literals

An expression made of constants and object constructions only has a value that is known
before the query runs. A construction with named arguments, or without any, is an object;
one with positional arguments is an array, and becomes an object keyed by position as soon
as members are assigned to it.

Evaluation itself is total, and falls back on a null for an expression of any other kind. An
expression is therefore taken for a literal only after a look at all of its parts.
-/

namespace Odm.HostExpr

/-- Values by member name; of equal names the last one counts. -/
def namedFields (members : List String) (arguments : List Value) : Table String Value :=
  Table.ofEntries (members.zip arguments)

/-- Values by position. -/
def positionalFields (arguments : List Value) : Table String Value :=
  Table.ofEntries (arguments.zipIdx.map fun (v, i) => (toString i, v))

/-- Whether the arguments of a construction have names. -/
def hasNames (members : List String) (arguments : List Value) : Bool :=
  arguments.isEmpty || members.length = arguments.length

/-- The value of a construction. -/
def constructed (members : List String) (arguments : List Value) : Value :=
  if hasNames members arguments then .obj (namedFields members arguments) else .arr arguments

/-- What evaluation gives where there is nothing to give: a value for an expression of another
kind, and fields for a value that has none. -/
structure Fallback where
  value : Value
  fields : Table String Value

/-- Null, and no fields at all. -/
def Fallback.nothing : Fallback := ⟨.null, []⟩

/-- The fields that members are assigned to. -/
def assignable (f : Fallback) : Value → Table String Value
  | .obj fields => fields
  | .arr items => positionalFields items
  | _ => f.fields

/-- Fields with members assigned to them one after the other. -/
def assigned (fields : Table String Value) (bindings : List (String × Value)) :
    Table String Value :=
  bindings.foldl (fun (table : Table String Value) (name, v) => table.insert name v) fields

mutual

/-- Whether an expression is made of constants and constructions only. -/
def isKnown : HostExpr → Bool
  | .constant _ _ => true
  | .construct _ _ arguments => allKnown arguments
  | .memberInit _ _ arguments bindings => allKnown arguments && bindingsKnown bindings
  | _ => false

/-- Whether all expressions of a list are. -/
def allKnown : List HostExpr → Bool
  | [] => true
  | e :: rest => isKnown e && allKnown rest

/-- Whether the expressions of all assignments are. -/
def bindingsKnown : List (String × HostExpr) → Bool
  | [] => true
  | (_, e) :: rest => isKnown e && bindingsKnown rest

end

mutual

/-- The value of an expression made of constants and constructions. -/
def evaluate (f : Fallback) : HostExpr → Value
  | .constant value _ => value
  | .construct _ members arguments => constructed members (evaluateAll f arguments)
  | .memberInit _ members arguments bindings =>
    .obj (assigned (assignable f (constructed members (evaluateAll f arguments)))
      (evaluateBindings f bindings))
  | _ => f.value

/-- The values of expressions. -/
def evaluateAll (f : Fallback) : List HostExpr → List Value
  | [] => []
  | e :: rest => evaluate f e :: evaluateAll f rest

/-- The values of assignments. -/
def evaluateBindings (f : Fallback) : List (String × HostExpr) → List (String × Value)
  | [] => []
  | (name, e) :: rest => (name, evaluate f e) :: evaluateBindings f rest

end

/-- The value of an expression, if it is known. -/
def literal? (e : HostExpr) : Option Value :=
  if e.isKnown then some (e.evaluate .nothing) else none

end Odm.HostExpr
