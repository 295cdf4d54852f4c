import Odm.Host.Operator
import Odm.Query.Access
import Odm.Value.Text

/-!
# Scalar nodes

The scalar and predicate part of a query, as the document store will compute it: fields,
constants and parameters under operators, conditionals, functions and membership tests.
Each node records the host type of its value and the mapping the value is stored with.
Nodes may still lack a mapping; `Odm.Query.Mapping` infers the missing ones.
-/

namespace Odm

/-- Unary operators of scalar nodes. -/
inductive ScalarUnaryOp where
  | not
  | negate
  /-- The same value seen as another type. -/
  | convert
  deriving DecidableEq, Repr

/-- A scalar or predicate of a query. -/
inductive Scalar where
  | field (f : Field)
  | binary (op : BinaryOp) (left right : Scalar) (type : HostType) (mapping : Option Mapping)
  | unary (op : ScalarUnaryOp) (operand : Scalar) (type : HostType) (mapping : Option Mapping)
  | conditional (test ifTrue ifFalse : Scalar) (mapping : Option Mapping)
  | function (name : String) (arguments : List Scalar) (type : HostType)
      (mapping : Option Mapping)
  | constant (value : Value) (type : HostType) (mapping : Option Mapping)
  | parameter (name : String) (type : HostType) (mapping : Option Mapping)
  /-- The test that `item` is one of `values`, or that it is none. -/
  | within (item values : Scalar) (negated : Bool) (mapping : Option Mapping)
  deriving Repr, Inhabited

namespace Scalar

/-- The host type of the node's value. -/
def type : Scalar → HostType
  | .field f => f.property.type
  | .binary _ _ _ type _ | .unary _ _ type _ | .function _ _ type _ => type
  | .constant _ type _ | .parameter _ type _ => type
  | .conditional _ ifTrue _ _ => ifTrue.type
  | .within _ _ _ _ => .bool

/-- The mapping the node's value is stored with. -/
def mapping : Scalar → Option Mapping
  | .field f => f.mapping
  | .binary _ _ _ _ m | .unary _ _ _ m | .conditional _ _ _ m | .function _ _ _ m => m
  | .constant _ _ m | .parameter _ _ m | .within _ _ _ m => m

/-- Whether this is the constant `true`. -/
def isTrue : Scalar → Bool
  | .constant (.bool true) _ _ => true
  | _ => false

/-- The direct parts of a node, in the order in which they are computed. -/
def children : Scalar → List Scalar
  | .field _ | .constant _ _ _ | .parameter _ _ _ => []
  | .binary _ left right _ _ => [left, right]
  | .unary _ operand _ _ => [operand]
  | .conditional test ifTrue ifFalse _ => [test, ifTrue, ifFalse]
  | .function _ arguments _ _ => arguments
  | .within item values _ _ => [item, values]

/-- A membership test with its sense turned round; other nodes are kept. -/
def negateWithin : Scalar → Scalar
  | .within item values negated m => .within item values (!negated) m
  | s => s

/-! ## Equality -/

mutual

/-- Structural equality, as a truth value. -/
def beq : Scalar → Scalar → Bool
  | .field f, .field g => decide (f = g)
  | .binary o l r t m, .binary o' l' r' t' m' =>
    decide (o = o') && beq l l' && beq r r' && decide (t = t') && decide (m = m')
  | .unary o x t m, .unary o' x' t' m' =>
    decide (o = o') && beq x x' && decide (t = t') && decide (m = m')
  | .conditional c a b m, .conditional c' a' b' m' =>
    beq c c' && beq a a' && beq b b' && decide (m = m')
  | .function n xs t m, .function n' xs' t' m' =>
    decide (n = n') && beqList xs xs' && decide (t = t') && decide (m = m')
  | .constant v t m, .constant v' t' m' => decide (v = v') && decide (t = t') && decide (m = m')
  | .parameter n t m, .parameter n' t' m' =>
    decide (n = n') && decide (t = t') && decide (m = m')
  | .within x vs n m, .within x' vs' n' m' =>
    beq x x' && beq vs vs' && decide (n = n') && decide (m = m')
  | _, _ => false

/-- Structural equality of lists of nodes. -/
def beqList : List Scalar → List Scalar → Bool
  | [], [] => true
  | x :: xs, y :: ys => beq x y && beqList xs ys
  | _, _ => false

end

mutual

theorem beq_iff : (a b : Scalar) → (beq a b = true ↔ a = b)
  | .field _, b => by cases b <;> simp [beq]
  | .binary _ l r _ _, b => by cases b <;> simp [beq, beq_iff l, beq_iff r, and_assoc]
  | .unary _ x _ _, b => by cases b <;> simp [beq, beq_iff x, and_assoc]
  | .conditional c x y _, b => by
    cases b <;> simp [beq, beq_iff c, beq_iff x, beq_iff y, and_assoc]
  | .function _ xs _ _, b => by cases b <;> simp [beq, beqList_iff xs, and_assoc]
  | .constant _ _ _, b => by cases b <;> simp [beq, and_assoc]
  | .parameter _ _ _, b => by cases b <;> simp [beq, and_assoc]
  | .within x vs _ _, b => by cases b <;> simp [beq, beq_iff x, beq_iff vs, and_assoc]

theorem beqList_iff : (as bs : List Scalar) → (beqList as bs = true ↔ as = bs)
  | [], bs => by cases bs <;> simp [beqList]
  | a :: as, bs => by cases bs <;> simp [beqList, beq_iff a, beqList_iff as]

end

instance : DecidableEq Scalar := fun a b => decidable_of_iff (beq a b = true) (beq_iff a b)

/-! ## Text -/

mutual

/-- A node as it is shown in statements and messages. -/
def text : Scalar → String
  | .field f => f.text
  | .binary op left right _ _ =>
    "(" ++ left.text ++ " " ++ op.symbol ++ " " ++ right.text ++ ")"
  | .unary .not operand _ _ => "NOT(" ++ operand.text ++ ")"
  | .unary .negate operand _ _ => "-" ++ operand.text
  | .unary .convert operand type _ => "CAST(" ++ operand.text ++ " AS " ++ type.text ++ ")"
  | .conditional test ifTrue ifFalse _ =>
    "(" ++ test.text ++ " ? " ++ ifTrue.text ++ " : " ++ ifFalse.text ++ ")"
  | .function name arguments _ _ => name ++ "(" ++ ", ".intercalate (texts arguments) ++ ")"
  | .constant value _ _ => value.text
  | .parameter name _ _ => "@" ++ name
  | .within item values negated _ =>
    item.text ++ (if negated then " NOT IN (" else " IN (") ++ values.text ++ ")"

/-- The texts of nodes. -/
def texts : List Scalar → List String
  | [] => []
  | s :: rest => s.text :: texts rest

end

end Scalar

end Odm
