import Odm.Query.Select

/-!
# Find plans

A find plan is what a document store needs to run a query: a filter, a projection, sort keys
and paging. Filters and projected values are aggregation expressions, in which every scalar
node becomes one operator of the store. Constants and the values of parameters are wrapped as
literals, so that no value is ever read as an operator or a field.

A query of a derived type reads the collection of the whole hierarchy and is restricted to
the discriminators of the type and of the types below it.
-/

namespace Odm

/-- A field by which results are sorted. -/
structure SortKey where
  path : String
  ascending : Bool
  deriving DecidableEq, Repr

/-- What a document store needs to run a query. -/
structure FindPlan where
  collection : String
  filter : Value
  projection : Option Value
  sort : List SortKey
  skip : Option Nat
  limit : Option Nat
  distinct : Bool
  deriving DecidableEq, Repr

/-- The values of query parameters by name. -/
abbrev Parameters := Table String Value

/-- The value of a parameter. -/
def Parameters.value (parameters : Parameters) (name : String) : Except QueryError Value :=
  match parameters.get? name with
  | some v => .ok v
  | none => .error (.unboundParameter name)

/-! ## Aggregation expressions -/

/-- An operator of the document store over its operands. -/
def Value.operation (operator : String) (operands : List Value) : Value :=
  .obj [(operator, .arr operands)]

/-- A value that the document store takes as it is. -/
def Value.literal (v : Value) : Value := .obj [("$literal", v)]

/-- A reference to a field of the document. -/
def Value.fieldPath (path : List String) : Value := .str ("$" ++ ".".intercalate path)

/-- The document store's operator for a binary operator on values of the type. -/
def BinaryOp.operator? (op : BinaryOp) (type : HostType) : Option String :=
  match op with
  | .equal => some "$eq"
  | .notEqual => some "$ne"
  | .lessThan => some "$lt"
  | .lessThanOrEqual => some "$lte"
  | .greaterThan => some "$gt"
  | .greaterThanOrEqual => some "$gte"
  | .andAlso => some "$and"
  | .orElse => some "$or"
  | .and => if type = .bool then some "$and" else none
  | .or => if type = .bool then some "$or" else none
  | .add => some "$add"
  | .subtract => some "$subtract"
  | .multiply => some "$multiply"
  | .divide => some "$divide"
  | .modulo => some "$mod"
  | .exclusiveOr | .coalesce => none

namespace Scalar

mutual

/-- A scalar as an aggregation expression. -/
def render (parameters : Parameters) : Scalar → Except QueryError Value
  | .field f =>
    if f.name.isEmpty then .error (.unsupportedFilter f.text) else .ok (.fieldPath f.path)
  | .constant value _ _ => .ok value.literal
  | .parameter name _ _ => do return (← parameters.value name).literal
  | .binary op left right type m =>
    match op.operator? type with
    | none => .error (.unsupportedFilter (text (.binary op left right type m)))
    | some operator => do
      let left ← left.render parameters
      let right ← right.render parameters
      return .operation operator [left, right]
  | .unary op operand _ _ => do
    let operand ← operand.render parameters
    match op with
    | .not => return .operation "$not" [operand]
    | .negate => return .operation "$multiply" [operand, .int (-1)]
    | .convert => return operand
  | .conditional test ifTrue ifFalse _ => do
    let test ← test.render parameters
    let ifTrue ← ifTrue.render parameters
    let ifFalse ← ifFalse.render parameters
    return .operation "$cond" [test, ifTrue, ifFalse]
  | .function name arguments _ _ => do
    return .operation ("$" ++ name) (← renderAll parameters arguments)
  | .within item values negated _ => do
    let item ← item.render parameters
    let values ← values.render parameters
    let test := Value.operation "$in" [item, values]
    return if negated then .operation "$not" [test] else test

/-- Scalars as aggregation expressions. -/
def renderAll (parameters : Parameters) : List Scalar → Except QueryError (List Value)
  | [] => .ok []
  | s :: rest => do
    let v ← s.render parameters
    let vs ← renderAll parameters rest
    return v :: vs

end

end Scalar

/-! ## Parts of a plan -/

namespace FindPlan

/-- The discriminators of the documents that a query of a derived type reads. -/
def discriminators (s : Schema) (t : EntityType) : List String :=
  ((t :: s.derived t.name).filter fun u => !u.isAbstract).map (·.discriminator)

/-- The restriction of a derived type's query to its own documents. -/
def discriminatorFilter? (s : Schema) (q : Select) : Option Value :=
  match s.find? q.entityType with
  | some t =>
    if t.isDerived then
      let values := (discriminators s t).map Value.str
      some (.obj [(s.discriminatorElement, .operation "$in" values)])
    else none
  | none => none

/-- Several filters as one. -/
def conjunction : List Value → Value
  | [] => .obj []
  | [filter] => filter
  | filters => .operation "$and" filters

/-- The filter for the predicate of a statement, if it has one. -/
def predicateFilter (parameters : Parameters) (q : Select) :
    Except QueryError (Option Value) :=
  match q.predicate with
  | none => .ok none
  | some predicate => do return some (.obj [("$expr", ← predicate.render parameters)])

/-- The sort key of an ordering term, which has to be a field. -/
def sortKey (t : OrderTerm) : Except QueryError SortKey :=
  match t.expression with
  | .field f =>
    if f.name.isEmpty then .error (.unsupportedOrdering f.text)
    else .ok ⟨".".intercalate f.path, t.ascending⟩
  | other => .error (.unsupportedOrdering other.text)

/-- The value of an output field. -/
def outputValue (parameters : Parameters) : Node → Except QueryError Value
  | .scalar s => s.render parameters
  | .entity shape =>
    if shape.access.isRoot then .ok (.str "$$ROOT") else .ok (.fieldPath shape.access.path)
  | .array shape => .ok (.fieldPath shape.path)

/-- The values of output fields by name. -/
def outputValues (parameters : Parameters) (fields : List OutputField) :
    Except QueryError (Table String Value) :=
  fields.foldlM (fun table f => do
    return Table.insert table f.name (← outputValue parameters f.node)) []

/-- Whether the output is just the whole document. -/
def isWholeDocument : List OutputField → Bool
  | [] => true
  | [⟨.entity shape, _⟩] => shape.access.isRoot
  | _ => false

/-- The projection for the output fields; whole documents need none. -/
def projection? (parameters : Parameters) (q : Select) : Except QueryError (Option Value) :=
  if isWholeDocument q.output then .ok none
  else do return some (.obj (← outputValues parameters q.output))

/-- A paging value as a count. -/
def count (v : Value) : Except QueryError Nat :=
  match v.toCount? with
  | some n => .ok n
  | none => .error (.invalidPagingValue v.text)

/-- The count that a paging node stands for: a constant or the value of a parameter. -/
def pagingCount (parameters : Parameters) : Scalar → Except QueryError Nat
  | .constant v _ _ => count v
  | .parameter name _ _ => do count (← parameters.value name)
  | other => .error (.invalidPagingValue other.text)

def pagingCount? (parameters : Parameters) (s : Option Scalar) :
    Except QueryError (Option Nat) :=
  match s with
  | none => .ok none
  | some s => do return some (← pagingCount parameters s)

/-- The plan of a select statement under the values of its parameters. -/
def ofSelect (s : Schema) (parameters : Parameters) (q : Select) :
    Except QueryError FindPlan := do
  let predicate ← predicateFilter parameters q
  let sort ← q.orderings.mapM sortKey
  let projection ← projection? parameters q
  let skip ← pagingCount? parameters q.offset
  let limit ← pagingCount? parameters q.limit
  return {
    collection := q.collection
    filter := conjunction ((discriminatorFilter? s q).toList ++ predicate.toList)
    projection := projection
    sort := sort
    skip := skip
    limit := limit
    distinct := q.isDistinct }

end FindPlan

end Odm
