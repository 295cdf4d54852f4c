import Odm.Query.Scalar

/-!
# Mapping inference

A constant or a parameter is made without a mapping, because what it is compared with
decides how it is stored. The functions of this file build composite nodes and give a
mapping to every part that lacks one:

* the operands of a binary node share the mapping of the left one, or of the right one
  where the left has none, and so do the branches of a conditional;
* a part that gets no mapping from a sibling takes the one of its own type.

A node that has a mapping is never looked into again. The result is `none` when some part
has a type that documents cannot hold, and for coalescing, which has no node of its own.
-/

namespace Odm.Scalar

/-- Truth values are stored as they are. -/
def boolMapping : Option Mapping := some ⟨.bool⟩

/-- The inferred mapping, or else the type's own. -/
def resolveMapping (inferred : Option Mapping) (type : HostType) : Option Mapping :=
  inferred <|> type.mapping?

/-- The mapping that two siblings share. -/
def sharedMapping (left right : Scalar) : Option Mapping := left.mapping <|> right.mapping

/-! ## Nodes over mapped parts -/

/-- A binary node; predicates are truth values, all else has the type of its left operand. -/
def joinBinary (op : BinaryOp) (left right : Option Scalar) : Option Scalar := do
  if op = .coalesce then none
  let left ← left
  let right ← right
  if op.isPredicate then some (.binary op left right .bool boolMapping)
  else some (.binary op left right left.type left.mapping)

/-- A unary node; all but negated truth values keep the mapping of their operand. -/
def joinUnary (op : ScalarUnaryOp) (type : HostType) (operand : Option Scalar) :
    Option Scalar := do
  let operand ← operand
  match op with
  | .not => some (.unary .not operand .bool boolMapping)
  | .negate => some (.unary .negate operand operand.type operand.mapping)
  | .convert => some (.unary .convert operand type operand.mapping)

/-- A conditional, stored like its branches. -/
def joinConditional (test ifTrue ifFalse : Option Scalar) : Option Scalar := do
  let test ← test
  let ifTrue ← ifTrue
  let ifFalse ← ifFalse
  some (.conditional test ifTrue ifFalse (sharedMapping ifTrue ifFalse))

/-- A call of a function whose result documents can hold. -/
def joinFunction (name : String) (type : HostType) (arguments : Option (List Scalar)) :
    Option Scalar := do
  let arguments ← arguments
  let m ← type.mapping?
  some (.function name arguments type (some m))

/-- A membership test. -/
def joinWithin (negated : Bool) (item values : Option Scalar) : Option Scalar := do
  let item ← item
  let values ← values
  some (.within item values negated boolMapping)

/-! ## Inference -/

mutual

/-- The node with mappings on it and on all parts it is rebuilt from; `inferred` is what a
leaf without a mapping gets. -/
def applyMapping (inferred : Option Mapping) : Scalar → Option Scalar
  | .field f =>
    if f.mapping.isSome then some (.field f)
    else (resolveMapping inferred f.property.type).map fun m =>
      .field { f with mapping := some m }
  | .constant value type m =>
    if m.isSome then some (.constant value type m)
    else (resolveMapping inferred type).map fun m => .constant value type (some m)
  | .parameter name type m =>
    if m.isSome then some (.parameter name type m)
    else (resolveMapping inferred type).map fun m => .parameter name type (some m)
  | .binary op left right type m =>
    if m.isSome then some (.binary op left right type m)
    else joinBinary op (applyMapping (sharedMapping left right) left)
      (applyMapping (sharedMapping left right) right)
  | .unary op operand type m =>
    if m.isSome then some (.unary op operand type m)
    else joinUnary op type (applyMapping none operand)
  | .conditional test ifTrue ifFalse m =>
    if m.isSome then some (.conditional test ifTrue ifFalse m)
    else joinConditional (applyMapping none test)
      (applyMapping (sharedMapping ifTrue ifFalse) ifTrue)
      (applyMapping (sharedMapping ifTrue ifFalse) ifFalse)
  | .function name arguments type m =>
    if m.isSome then some (.function name arguments type m)
    else joinFunction name type (applyMappings arguments)
  | .within item values negated m =>
    if m.isSome then some (.within item values negated m)
    else joinWithin negated (applyMapping none item) (applyMapping none values)

/-- All nodes with mappings, each by itself. -/
def applyMappings : List Scalar → Option (List Scalar)
  | [] => some []
  | s :: rest => do
    let s ← applyMapping none s
    let rest ← applyMappings rest
    some (s :: rest)

end

/-! ## Building nodes -/

/-- A constant whose mapping is still open. -/
def literal (value : Value) (type : HostType) : Scalar := .constant value type none

/-- A parameter whose mapping is still open. -/
def placeholder (name : String) (type : HostType) : Scalar := .parameter name type none

/-- The binary node over two operands, unless the operator is coalescing. -/
def combine (op : BinaryOp) (left right : Scalar) : Option Scalar :=
  joinBinary op (left.applyMapping (sharedMapping left right))
    (right.applyMapping (sharedMapping left right))

def not (operand : Scalar) : Option Scalar :=
  joinUnary .not .bool (operand.applyMapping none)

def negate (operand : Scalar) : Option Scalar :=
  joinUnary .negate operand.type (operand.applyMapping none)

def convert (operand : Scalar) (type : HostType) : Option Scalar :=
  joinUnary .convert type (operand.applyMapping none)

/-- One of two values, after a test. -/
def choose (test ifTrue ifFalse : Scalar) : Option Scalar :=
  joinConditional (test.applyMapping none)
    (ifTrue.applyMapping (sharedMapping ifTrue ifFalse))
    (ifFalse.applyMapping (sharedMapping ifTrue ifFalse))

/-- A call of a function of the document store. -/
def call (name : String) (arguments : List Scalar) (type : HostType) : Option Scalar :=
  joinFunction name type (applyMappings arguments)

/-- The test that `item` is one of `values`, or that it is none. -/
def isIn (item values : Scalar) (negated : Bool) : Option Scalar :=
  joinWithin negated (item.applyMapping none) (values.applyMapping none)

/-! ## Verification -/

mutual

/-- The first node without a mapping, parents before their parts. -/
def firstUnmapped? : Scalar → Option Scalar
  | .field f => if f.mapping.isNone then some (.field f) else none
  | .constant v t m => if m.isNone then some (.constant v t m) else none
  | .parameter n t m => if m.isNone then some (.parameter n t m) else none
  | .binary op l r t m =>
    if m.isNone then some (.binary op l r t m) else firstUnmapped? l <|> firstUnmapped? r
  | .unary op x t m => if m.isNone then some (.unary op x t m) else firstUnmapped? x
  | .conditional c a b m =>
    if m.isNone then some (.conditional c a b m)
    else firstUnmapped? c <|> firstUnmapped? a <|> firstUnmapped? b
  | .function n xs t m =>
    if m.isNone then some (.function n xs t m) else firstUnmappedOf? xs
  | .within x vs n m =>
    if m.isNone then some (.within x vs n m) else firstUnmapped? x <|> firstUnmapped? vs

/-- The first node without a mapping in a list of nodes. -/
def firstUnmappedOf? : List Scalar → Option Scalar
  | [] => none
  | s :: rest => firstUnmapped? s <|> firstUnmappedOf? rest

end

end Odm.Scalar
