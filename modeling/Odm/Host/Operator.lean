import Odm.HostType

/-!
# Operators and methods

The binary and unary operators of host expressions, and the methods they call. The
binary operators are shared with scalar nodes; coalescing is the only one that never
is left in a scalar node.
-/

namespace Odm

inductive BinaryOp where
  | add
  | subtract
  | multiply
  | divide
  | modulo
  | and
  | or
  | exclusiveOr
  | andAlso
  | orElse
  | equal
  | notEqual
  | lessThan
  | lessThanOrEqual
  | greaterThan
  | greaterThanOrEqual
  /-- The left operand, or the right one where the left is null. -/
  | coalesce
  deriving DecidableEq, Repr

namespace BinaryOp

def isComparison : BinaryOp → Bool
  | .equal | .notEqual | .lessThan | .lessThanOrEqual | .greaterThan | .greaterThanOrEqual =>
    true
  | _ => false

def isLogical : BinaryOp → Bool
  | .andAlso | .orElse => true
  | _ => false

/-- Whether the operator's result is a truth value whatever its operands are. -/
def isPredicate (op : BinaryOp) : Bool := op.isComparison || op.isLogical

def symbol : BinaryOp → String
  | .add => "+"
  | .subtract => "-"
  | .multiply => "*"
  | .divide => "/"
  | .modulo => "%"
  | .and => "&"
  | .or => "|"
  | .exclusiveOr => "^"
  | .andAlso => "&&"
  | .orElse => "||"
  | .equal => "=="
  | .notEqual => "!="
  | .lessThan => "<"
  | .lessThanOrEqual => "<="
  | .greaterThan => ">"
  | .greaterThanOrEqual => ">="
  | .coalesce => "??"

end BinaryOp

/-- Unary operators of host expressions. -/
inductive HostUnaryOp where
  | not
  | negate
  | convert
  | typeAs
  | arrayLength
  | quote
  deriving DecidableEq, Repr

/-- Whether the operator views its operand as another type. -/
def HostUnaryOp.isConversion : HostUnaryOp → Bool
  | .convert | .typeAs => true
  | _ => false

/-- A method that a host expression calls. -/
structure Method where
  declaringType : HostType
  name : String
  isStatic : Bool
  isGeneric : Bool
  returnType : HostType
  deriving DecidableEq, Repr

namespace Method

/-- The class that declares the methods of sequences. -/
def sequenceClass : HostType := .named "Enumerable"

/-- The class that declares the access to a property by its name. -/
def accessorClass : HostType := .named "EF"

def ofInstance (declaringType : HostType) (name : String) (returnType : HostType) : Method :=
  ⟨declaringType, name, false, false, returnType⟩

def ofClass (declaringType : HostType) (name : String) (returnType : HostType) : Method :=
  ⟨declaringType, name, true, false, returnType⟩

/-- The membership test of sequences. -/
def sequenceContains : Method :=
  { ofClass sequenceClass "Contains" .bool with isGeneric := true }

/-- The membership test of a list or collection type. -/
def collectionContains (declaringType : HostType) : Method :=
  ofInstance declaringType "Contains" .bool

/-- The equality test of a type. -/
def instanceEquals (declaringType : HostType) : Method :=
  ofInstance declaringType "Equals" .bool

/-- The equality test of two objects. -/
def staticEquals : Method := ofClass .object "Equals" .bool

/-- The access to a property by its name. -/
def propertyAccessor (returnType : HostType) : Method :=
  { ofClass accessorClass "Property" returnType with isGeneric := true }

/-- Whether this is the membership test of sequences, whatever its return type. -/
def isSequenceContains (m : Method) : Bool :=
  m.isStatic && m.isGeneric && m.name = "Contains" && m.declaringType = sequenceClass

/-- Whether this is the access to a property by its name. -/
def isPropertyAccessor (m : Method) : Bool :=
  m.isStatic && m.isGeneric && m.name = "Property" && m.declaringType = accessorClass

end Method

end Odm
