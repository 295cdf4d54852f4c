import Odm.Query.OutputPath
import Odm.Query.Shape

/-!
# Host expressions

The expressions of the host program that a query is written in: member access, calls,
operators, object construction and lambdas. Two kinds of leaf stand for what a query
already has: a *projected* leaf is what the query projects at an output path, and a *shaper*
is an entity made from such a buffer. Parts that are translated already may be embedded.

Every expression has a static type (`HostExpr.type`) and a text (`HostExpr.text`) that
messages show.
-/

namespace Odm

/-- An expression of the host program. -/
inductive HostExpr where
  | constant (value : Value) (type : HostType)
  | parameter (name : String) (type : HostType)
  | member (source : HostExpr) (name : String) (type : HostType)
  | staticMember (name : String) (type : HostType)
  | call (object : HostExpr) (method : Method) (arguments : List HostExpr)
  | staticCall (method : Method) (arguments : List HostExpr)
  | binary (op : BinaryOp) (left right : HostExpr) (type : HostType)
  | unary (op : HostUnaryOp) (operand : HostExpr) (type : HostType)
  | conditional (test ifTrue ifFalse : HostExpr) (type : HostType)
  /-- A constructor call; `members` names the arguments when there is one for each. -/
  | construct (type : HostType) (members : List String) (arguments : List HostExpr)
  /-- A constructor call followed by assignments to members. -/
  | memberInit (type : HostType) (members : List String) (arguments : List HostExpr)
      (bindings : List (String × HostExpr))
  | newArray (element : HostType) (items : List HostExpr)
  | listInit (type : HostType) (members : List String) (arguments : List HostExpr)
      (items : List HostExpr)
  | lambda (parameters : List (String × HostType)) (body : HostExpr)
  | invoke (function : HostExpr) (arguments : List HostExpr) (type : HostType)
  /-- An entity of the type, made from a value buffer. -/
  | shaper (entityType : String) (buffer : HostExpr)
  /-- What the query projects at an output path. -/
  | projected (path : OutputPath) (type : HostType)
  /-- A part of a query that is translated already. -/
  | query (node : Node)
  deriving Repr, Inhabited

namespace HostExpr

/-- The static type of an expression. -/
def type : HostExpr → HostType
  | .constant _ type | .parameter _ type | .member _ _ type | .staticMember _ type => type
  | .call _ method _ | .staticCall method _ => method.returnType
  | .binary _ _ _ type | .unary _ _ type | .conditional _ _ _ type => type
  | .construct type _ _ | .memberInit type _ _ _ | .listInit type _ _ _ => type
  | .newArray element _ => .array element
  | .lambda _ _ => .object
  | .invoke _ _ type => type
  | .shaper entityType _ => .entity entityType
  | .projected _ type => type
  | .query node => node.type

/-! ## Building expressions -/

/-- The typed null. -/
def null (type : HostType) : HostExpr := .constant .null type

/-- The type of a binary expression: a truth value for predicates, else the type of the left
operand, which for coalescing gives way to that of the right one. -/
def binaryType (op : BinaryOp) (left right : HostExpr) : HostType :=
  if op.isPredicate then .bool
  else if op = .coalesce then right.type
  else left.type

def operate (op : BinaryOp) (left right : HostExpr) : HostExpr :=
  .binary op left right (binaryType op left right)

def not (operand : HostExpr) : HostExpr := .unary .not operand .bool

def negate (operand : HostExpr) : HostExpr := .unary .negate operand operand.type

def convert (operand : HostExpr) (type : HostType) : HostExpr := .unary .convert operand type

def choose (test ifTrue ifFalse : HostExpr) : HostExpr :=
  .conditional test ifTrue ifFalse ifTrue.type

/-- The property of that name, accessed by its name. -/
def propertyOf (source : HostExpr) (name : String) (type : HostType) : HostExpr :=
  .staticCall (.propertyAccessor type) [source, .constant (.str name) .string]

/-- The source and the property name of an access to a property by its name. -/
def propertyArguments? : HostExpr → Option (HostExpr × String)
  | .call _ method [source, .constant (.str name) _]
  | .staticCall method [source, .constant (.str name) _] =>
    if method.isPropertyAccessor then some (source, name) else none
  | _ => none

/-! ## Equality -/

mutual

/-- Structural equality, as a truth value. -/
def beq : HostExpr → HostExpr → Bool
  | .constant v t, .constant v' t' => decide (v = v') && decide (t = t')
  | .parameter n t, .parameter n' t' => decide (n = n') && decide (t = t')
  | .member x n t, .member x' n' t' => beq x x' && decide (n = n') && decide (t = t')
  | .staticMember n t, .staticMember n' t' => decide (n = n') && decide (t = t')
  | .call x m as, .call x' m' as' => beq x x' && decide (m = m') && beqList as as'
  | .staticCall m as, .staticCall m' as' => decide (m = m') && beqList as as'
  | .binary o l r t, .binary o' l' r' t' =>
    decide (o = o') && beq l l' && beq r r' && decide (t = t')
  | .unary o x t, .unary o' x' t' => decide (o = o') && beq x x' && decide (t = t')
  | .conditional c a b t, .conditional c' a' b' t' =>
    beq c c' && beq a a' && beq b b' && decide (t = t')
  | .construct t ms as, .construct t' ms' as' =>
    decide (t = t') && decide (ms = ms') && beqList as as'
  | .memberInit t ms as bs, .memberInit t' ms' as' bs' =>
    decide (t = t') && decide (ms = ms') && beqList as as' && beqBindings bs bs'
  | .newArray t xs, .newArray t' xs' => decide (t = t') && beqList xs xs'
  | .listInit t ms as xs, .listInit t' ms' as' xs' =>
    decide (t = t') && decide (ms = ms') && beqList as as' && beqList xs xs'
  | .lambda ps b, .lambda ps' b' => decide (ps = ps') && beq b b'
  | .invoke f as t, .invoke f' as' t' => beq f f' && beqList as as' && decide (t = t')
  | .shaper n b, .shaper n' b' => decide (n = n') && beq b b'
  | .projected p t, .projected p' t' => decide (p = p') && decide (t = t')
  | .query n, .query n' => decide (n = n')
  | _, _ => false

/-- Structural equality of lists of expressions. -/
def beqList : List HostExpr → List HostExpr → Bool
  | [], [] => true
  | x :: xs, y :: ys => beq x y && beqList xs ys
  | _, _ => false

/-- Structural equality of lists of assignments. -/
def beqBindings : List (String × HostExpr) → List (String × HostExpr) → Bool
  | [], [] => true
  | (m, x) :: xs, (n, y) :: ys => decide (m = n) && beq x y && beqBindings xs ys
  | _, _ => false

end

mutual

theorem beq_iff : (a b : HostExpr) → (beq a b = true ↔ a = b)
  | .constant _ _, b | .parameter _ _, b | .staticMember _ _, b | .projected _ _, b
  | .query _, b => by cases b <;> simp [beq]
  | .member x _ _, b => by cases b <;> simp [beq, beq_iff x, and_assoc]
  | .call x _ as, b => by cases b <;> simp [beq, beq_iff x, beqList_iff as, and_assoc]
  | .staticCall _ as, b => by cases b <;> simp [beq, beqList_iff as]
  | .binary _ l r _, b => by cases b <;> simp [beq, beq_iff l, beq_iff r, and_assoc]
  | .unary _ x _, b => by cases b <;> simp [beq, beq_iff x, and_assoc]
  | .conditional c x y _, b => by
    cases b <;> simp [beq, beq_iff c, beq_iff x, beq_iff y, and_assoc]
  | .construct _ _ as, b => by cases b <;> simp [beq, beqList_iff as, and_assoc]
  | .memberInit _ _ as bs, b => by
    cases b <;> simp [beq, beqList_iff as, beqBindings_iff bs, and_assoc]
  | .newArray _ xs, b => by cases b <;> simp [beq, beqList_iff xs]
  | .listInit _ _ as xs, b => by
    cases b <;> simp [beq, beqList_iff as, beqList_iff xs, and_assoc]
  | .lambda _ x, b => by cases b <;> simp [beq, beq_iff x]
  | .invoke f as _, b => by cases b <;> simp [beq, beq_iff f, beqList_iff as, and_assoc]
  | .shaper _ x, b => by cases b <;> simp [beq, beq_iff x]

theorem beqList_iff : (as bs : List HostExpr) → (beqList as bs = true ↔ as = bs)
  | [], bs => by cases bs <;> simp [beqList]
  | a :: as, bs => by cases bs <;> simp [beqList, beq_iff a, beqList_iff as]

theorem beqBindings_iff :
    (as bs : List (String × HostExpr)) → (beqBindings as bs = true ↔ as = bs)
  | [], bs => by cases bs <;> simp [beqBindings]
  | (_, a) :: as, bs => by
    cases bs <;> simp [beqBindings, beq_iff a, beqBindings_iff as, Prod.ext_iff]

end

instance : DecidableEq HostExpr := fun a b => decidable_of_iff (beq a b = true) (beq_iff a b)

/-! ## Text -/

/-- A list in braces. -/
def braced (items : List String) : String := "\x7b " ++ ", ".intercalate items ++ " \x7d"

mutual

/-- An expression as messages show it. -/
def text : HostExpr → String
  | .constant value _ => value.text
  | .parameter name _ => name
  | .member source name _ => source.text ++ "." ++ name
  | .staticMember name _ => name
  | .call object method arguments =>
    object.text ++ "." ++ method.name ++ "(" ++ ", ".intercalate (texts arguments) ++ ")"
  | .staticCall method arguments =>
    method.declaringType.text ++ "." ++ method.name ++ "(" ++ ", ".intercalate (texts arguments)
      ++ ")"
  | .binary op left right _ => "(" ++ left.text ++ " " ++ op.symbol ++ " " ++ right.text ++ ")"
  | .unary op operand type =>
    match op with
    | .not => "!" ++ operand.text
    | .negate => "-" ++ operand.text
    | .convert => "Convert(" ++ operand.text ++ ", " ++ type.text ++ ")"
    | .typeAs => "(" ++ operand.text ++ " as " ++ type.text ++ ")"
    | .arrayLength => "ArrayLength(" ++ operand.text ++ ")"
    | .quote => operand.text
  | .conditional test ifTrue ifFalse _ =>
    "(" ++ test.text ++ " ? " ++ ifTrue.text ++ " : " ++ ifFalse.text ++ ")"
  | .construct type _ arguments =>
    "new " ++ type.text ++ "(" ++ ", ".intercalate (texts arguments) ++ ")"
  | .memberInit type _ _ bindings =>
    "new " ++ type.text ++ " " ++ braced (bindingTexts bindings)
  | .newArray element items => "new " ++ element.text ++ "[] " ++ braced (texts items)
  | .listInit type _ _ items => "new " ++ type.text ++ " " ++ braced (texts items)
  | .lambda parameters body =>
    "(" ++ ", ".intercalate (parameters.map Prod.fst) ++ ") => " ++ body.text
  | .invoke function arguments _ =>
    "Invoke(" ++ ", ".intercalate (function.text :: texts arguments) ++ ")"
  | .shaper entityType _ => "EntityShaper(" ++ entityType ++ ")"
  | .projected path _ => "ProjectionBinding(" ++ OutputPath.text path ++ ")"
  | .query node => node.text

/-- The texts of expressions. -/
def texts : List HostExpr → List String
  | [] => []
  | e :: rest => e.text :: texts rest

/-- The texts of assignments. -/
def bindingTexts : List (String × HostExpr) → List String
  | [] => []
  | (name, e) :: rest => (name ++ " = " ++ e.text) :: bindingTexts rest

end

end HostExpr

end Odm
