import Odm.Host.Expr

/-!
# Substitution

Replacing a parameter puts an expression in the place of its free occurrences. A lambda
that declares a parameter of the same name hides the outer one, so nothing inside it is
replaced. The replacement is put in as it is; a query binds parameters to expressions that
have none of their own.
-/

namespace Odm.HostExpr

mutual

/-- The expression with `r` for every free occurrence of the parameter `name`. -/
def replace (e : HostExpr) (name : String) (r : HostExpr) : HostExpr :=
  match e with
  | .parameter n type => if n = name then r else .parameter n type
  | .constant value type => .constant value type
  | .member source n type => .member (source.replace name r) n type
  | .staticMember n type => .staticMember n type
  | .call object method arguments =>
    .call (object.replace name r) method (replaceAll arguments name r)
  | .staticCall method arguments => .staticCall method (replaceAll arguments name r)
  | .binary op left right type => .binary op (left.replace name r) (right.replace name r) type
  | .unary op operand type => .unary op (operand.replace name r) type
  | .conditional test ifTrue ifFalse type =>
    .conditional (test.replace name r) (ifTrue.replace name r) (ifFalse.replace name r) type
  | .construct type members arguments => .construct type members (replaceAll arguments name r)
  | .memberInit type members arguments bindings =>
    .memberInit type members (replaceAll arguments name r) (replaceBindings bindings name r)
  | .newArray element items => .newArray element (replaceAll items name r)
  | .listInit type members arguments items =>
    .listInit type members (replaceAll arguments name r) (replaceAll items name r)
  | .lambda parameters body =>
    if name ∈ parameters.map Prod.fst then .lambda parameters body
    else .lambda parameters (body.replace name r)
  | .invoke function arguments type =>
    .invoke (function.replace name r) (replaceAll arguments name r) type
  | .shaper entityType buffer => .shaper entityType (buffer.replace name r)
  | .projected path type => .projected path type
  | .query node => .query node

/-- Replacement in every expression of a list. -/
def replaceAll (es : List HostExpr) (name : String) (r : HostExpr) : List HostExpr :=
  match es with
  | [] => []
  | e :: rest => e.replace name r :: replaceAll rest name r

/-- Replacement in the values of assignments. -/
def replaceBindings (bindings : List (String × HostExpr)) (name : String) (r : HostExpr) :
    List (String × HostExpr) :=
  match bindings with
  | [] => []
  | (n, e) :: rest => (n, e.replace name r) :: replaceBindings rest name r

end

end Odm.HostExpr
