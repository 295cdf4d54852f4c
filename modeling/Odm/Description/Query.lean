import Odm.Description.Operator
import Odm.Description.Schema
import Odm.Query.FindPlan

/-!
# Descriptions of queries

Scalar nodes are described by their kind, their own facts, their type and mapping, and their
parts in the order in which they are computed. Shapes and statements are described likewise.
-/

namespace Odm

def QueryError.describe (e : QueryError) : Value := .failure e.code e.message

/-- The outcome of a step of a query. -/
def describeOutcome {α : Type} (f : α → Value) : Except QueryError α → Value
  | .ok a => f a
  | .error e => e.describe

def Mapping.describe (m : Mapping) : Value := m.type.describe

namespace Scalar

/-- The kind of a node and the facts of its own. -/
def facts : Scalar → List (String × Value)
  | .field f => [
    ("k", .str "key"),
    ("name", .str f.name),
    ("path", .strs f.path),
    ("decl", .str f.property.declaringType),
    ("prop", .str f.property.name)]
  | .binary op _ _ _ _ => [("k", .str "bin"), ("op", .str op.code)]
  | .unary op _ _ _ => [("k", .str "un"), ("op", .str op.code)]
  | .conditional _ _ _ _ => [("k", .str "cond")]
  | .function name _ _ _ => [("k", .str "func"), ("name", .str name)]
  | .constant v _ _ => [("k", .str "const"), ("v", v)]
  | .parameter name _ _ => [("k", .str "param"), ("name", .str name)]
  | .within _ _ negated _ => [("k", .str "in"), ("negated", .bool negated)]

/-- A node from the descriptions of its parts. -/
def describeWith (s : Scalar) (parts : List Value) : Value :=
  .record (s.facts
    ++ [("t", s.type.describe), ("map", .option Mapping.describe s.mapping)]
    ++ if parts.isEmpty then [] else [("x", .arr parts)])

mutual

def describe (s : Scalar) : Value :=
  match s with
  | .field f => describeWith (.field f) []
  | .binary op left right type m =>
    describeWith (.binary op left right type m) [left.describe, right.describe]
  | .unary op operand type m => describeWith (.unary op operand type m) [operand.describe]
  | .conditional test ifTrue ifFalse m =>
    describeWith (.conditional test ifTrue ifFalse m)
      [test.describe, ifTrue.describe, ifFalse.describe]
  | .function name arguments type m =>
    describeWith (.function name arguments type m) (describeAll arguments)
  | .constant v type m => describeWith (.constant v type m) []
  | .parameter name type m => describeWith (.parameter name type m) []
  | .within item values negated m =>
    describeWith (.within item values negated m) [item.describe, values.describe]

def describeAll : List Scalar → List Value
  | [] => []
  | s :: rest => s.describe :: describeAll rest

end

end Scalar

/-- What is told of a node besides its name, its type and its text. -/
def Node.facts : Node → List (String × Value)
  | .scalar s => [("q", .str "sql"), ("sql", s.describe)]
  | .entity shape => [
    ("q", .str "entity"),
    ("type", .str shape.entityType),
    ("path", .strs shape.access.path)]
  | .array shape => [
    ("q", .str "array"),
    ("nav", .str shape.navigation.fullName),
    ("path", .strs shape.path),
    ("access", .str shape.access.text),
    ("inner", .str shape.inner.entityType),
    ("inner_alias", .str shape.inner.access.name)]

def Node.describe (n : Node) : Value :=
  .record ([("name", .option .str n.name?), ("t", n.type.describe), ("display", .str n.text)]
    ++ n.facts)

/-- A statement by the texts of its parts. -/
def Select.summarize (q : Select) : Value :=
  let entry (entry : OutputPath × Node) : Value :=
    .strs [OutputPath.text entry.1, entry.2.text]
  .record [
    ("sql", .str q.text),
    ("applied", .bool q.isProjected),
    ("mapping", .items entry q.mapping),
    ("projection", .items (fun f => .strs [f.name, f.node.text]) q.output)]

/-- A statement with all its nodes. -/
def Select.describe (q : Select) : Value :=
  .record [
    ("collection", .str q.collection),
    ("from", .strs [q.entityType, rootAlias]),
    ("predicate", .option Scalar.describe q.predicate),
    ("orderings", .items (fun t => .arr [t.expression.describe, .bool t.ascending]) q.orderings),
    ("limit", .option Scalar.describe q.limit),
    ("offset", .option Scalar.describe q.offset),
    ("distinct", .bool q.isDistinct),
    ("projection", .items (fun f => .arr [.str f.name, f.node.describe]) q.output)]

def SortKey.describe (k : SortKey) : Value :=
  .record [("path", .str k.path), ("ascending", .bool k.ascending)]

/-- A find plan; what it does without is left out. -/
def FindPlan.describe (plan : FindPlan) : Value :=
  let entry {α : Type} (name : String) (f : α → Value) (part : Option α) :=
    part.toList.map fun a => (name, f a)
  let sort := if plan.sort.isEmpty then none else some plan.sort
  .record ([
    ("collection", .str plan.collection),
    ("filter", plan.filter),
    ("distinct", .bool plan.distinct)]
    ++ entry "projection" id plan.projection
    ++ entry "sort" (.items SortKey.describe) sort
    ++ entry "skip" .count plan.skip
    ++ entry "limit" .count plan.limit)

end Odm
