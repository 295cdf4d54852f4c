import Odm.Description.HostType
import Odm.Host.Operator
import Odm.Query.Scalar

/-!
# Descriptions of operators and methods

Operators are described by codes, which can be read back.
-/

namespace Odm

namespace BinaryOp

def code : BinaryOp → String
  | .add => "add"
  | .subtract => "sub"
  | .multiply => "mul"
  | .divide => "div"
  | .modulo => "mod"
  | .and => "band"
  | .or => "bor"
  | .exclusiveOr => "xor"
  | .andAlso => "and"
  | .orElse => "or"
  | .equal => "eq"
  | .notEqual => "ne"
  | .lessThan => "lt"
  | .lessThanOrEqual => "le"
  | .greaterThan => "gt"
  | .greaterThanOrEqual => "ge"
  | .coalesce => "coalesce"

/-- Every binary operator. -/
def all : List BinaryOp := [
  .add, .subtract, .multiply, .divide, .modulo, .and, .or, .exclusiveOr, .andAlso, .orElse,
  .equal, .notEqual, .lessThan, .lessThanOrEqual, .greaterThan, .greaterThanOrEqual, .coalesce]

/-- The operator that has the code. -/
def ofCode? (code : String) : Option BinaryOp := all.find? fun op => decide (op.code = code)

end BinaryOp

namespace HostUnaryOp

def code : HostUnaryOp → String
  | .not => "not"
  | .negate => "neg"
  | .convert => "conv"
  | .typeAs => "as"
  | .arrayLength => "len"
  | .quote => "quote"

/-- The operator that has the code. -/
def ofCode? (code : String) : Option HostUnaryOp :=
  [.not, .negate, .convert, .typeAs, .arrayLength, .quote].find? fun op =>
    decide (op.code = code)

end HostUnaryOp

namespace ScalarUnaryOp

def code : ScalarUnaryOp → String
  | .not => "not"
  | .negate => "neg"
  | .convert => "conv"

/-- The operator that has the code. -/
def ofCode? (code : String) : Option ScalarUnaryOp :=
  [.not, .negate, .convert].find? fun op => decide (op.code = code)

end ScalarUnaryOp

def Method.describe (m : Method) : Value :=
  .record [
    ("decl", m.declaringType.describe),
    ("name", .str m.name),
    ("static", .bool m.isStatic),
    ("generic", .bool m.isGeneric),
    ("ret", m.returnType.describe)]

end Odm
