import Odm.Query.Error
import Odm.Query.OutputPath
import Odm.Query.Shape
import Odm.Schema
import Odm.Table
import Odm.Text.Lowercase

/-!
# Select statements

A select statement reads documents of one collection: it keeps those that satisfy the
predicate, orders them, skips and limits them, and puts out some fields of each. It starts
with a mapping from output paths to the nodes found there; `applyProjection` turns the
mapping into a list of output fields and leaves the position of its field at each path.

Two rules keep a statement's meaning clear. Paging is applied once, and it fixes the
orderings in force: they can be extended but no longer replaced, reversed or, as far as the
query operators go, removed. Output fields have different names, whatever the case of their
letters, and none of them is called `value`.
-/

namespace Odm

/-- One term of an ordering. -/
structure OrderTerm where
  expression : Scalar
  ascending : Bool
  deriving DecidableEq, Repr

namespace OrderTerm

/-- The same term in the opposite direction. -/
def reversed (t : OrderTerm) : OrderTerm := ⟨t.expression, !t.ascending⟩

def text (t : OrderTerm) : String :=
  t.expression.text ++ if t.ascending then " ASC" else " DESC"

end OrderTerm

/-- One field of the result. -/
structure OutputField where
  node : Node
  name : String
  deriving DecidableEq, Repr

/-- The node, and the field's name where it differs from the node's own. -/
def OutputField.text (f : OutputField) : String :=
  if f.name.isEmpty || f.node.name? = some f.name then f.node.text
  else f.node.text ++ " AS " ++ f.name

/-- A query of one collection. -/
structure Select where
  entityType : String
  collection : String
  /-- What is found at each output path. -/
  mapping : Table OutputPath Node
  output : List OutputField := []
  /-- Whether the mapping has been turned into output fields. -/
  isProjected : Bool := false
  predicate : Option Scalar := none
  orderings : List OrderTerm := []
  limit : Option Scalar := none
  offset : Option Scalar := none
  isDistinct : Bool := false
  deriving DecidableEq, Repr

namespace Select

/-- The alias of the queried document. -/
def rootAlias : String := "c"

/-- The name that no output field gets. -/
def reservedName : String := "value"

/-- The statement that reads all documents of an entity type. -/
def ofType (s : Schema) (entityType : String) : Except QueryError Select := do
  let collection ← QueryError.ofSchema (s.collectionName entityType)
  return {
    entityType := entityType
    collection := collection
    mapping := Table.insert [] OutputPath.root (.entity (.root entityType rootAlias)) }

/-- What the statement projects at an output path. -/
def mapped (q : Select) (path : OutputPath) : Except QueryError Node :=
  match q.mapping.get? path with
  | some node => .ok node
  | none => .error (.projectionNotFound path.text)

/-- The statement with another mapping; of equal paths the last one counts. -/
def replaceMapping (q : Select) (entries : List (OutputPath × Node)) : Select :=
  { q with mapping := Table.ofEntries entries }

/-! ## Output fields -/

/-- Names are compared without regard to case. -/
def sameName (a b : String) : Bool := lowercase a = lowercase b

/-- Whether an output field can still get the name. -/
def isFree (taken : List String) (name : String) : Bool :=
  !(sameName name reservedName || taken.any fun other => sameName other name)

/-- A name and the same name with the numbers from zero up to `n` behind it. -/
def nameChoices (name : String) (n : Nat) : List String :=
  name :: (List.range (n + 1)).map fun i => name ++ toString i

/-- The first free choice. Of one choice more than there are names to avoid, one is free. -/
def freshName (taken : List String) (name : String) : String :=
  ((nameChoices name taken.length).find? (isFree taken)).getD name

/-- The name an output field would like to have: the preferred one, else the node's own,
else the alias of the document. -/
def wantedName (node : Node) (preferred : Option String) : String :=
  (preferred <|> node.name?.filter fun name => !name.isEmpty).getD rootAlias

/-- The statement with an output field for the node, and the position of that field. A node
that is put out already keeps its field. -/
def addOutput (q : Select) (node : Node) (preferred : Option String) : Nat × Select :=
  match q.output.findIdx? (·.node = node) with
  | some i => (i, q)
  | none =>
    let name := freshName (q.output.map (·.name)) (wantedName node preferred)
    (q.output.length, { q with output := q.output ++ [⟨node, name⟩] })

/-- The constant that stands at a path for the position of its output field. -/
def position (i : Nat) : Node := .scalar (.constant (.int i) .int32 (some ⟨.int32⟩))

/-- Output fields for the given entries of the mapping, in their order, and the entries with
the positions of their fields. -/
def addOutputs (q : Select) : List (OutputPath × Node) → Select × List (OutputPath × Node)
  | [] => (q, [])
  | (path, node) :: rest =>
    let (i, q) := q.addOutput node path.last?
    let (q, positions) := addOutputs q rest
    (q, (path, position i) :: positions)

/-- The statement with its mapping turned into output fields; later calls change nothing. -/
def applyProjection (q : Select) : Select :=
  if q.isProjected then q
  else
    let (q, positions) := q.addOutputs q.mapping
    { q with mapping := positions, isProjected := true }

/-! ## Rows -/

/-- The statement restricted by one more predicate; the constant `true` restricts nothing. -/
def applyPredicate (q : Select) (predicate : Scalar) : Select :=
  if predicate.isTrue then q
  else
    match q.predicate with
    | none => { q with predicate := some predicate }
    | some existing =>
      { q with
        predicate := some (.binary .andAlso existing predicate .bool predicate.mapping) }

def applyLimit (q : Select) (limit : Scalar) : Except QueryError Select :=
  if q.limit.isSome then .error .limitAlreadyApplied else .ok { q with limit := some limit }

def applyOffset (q : Select) (offset : Scalar) : Except QueryError Select :=
  if q.offset.isSome then .error .offsetAlreadyApplied
  else .ok { q with offset := some offset }

/-- The statement ordered by one term alone, before distinct and paging. -/
def applyOrdering (q : Select) (term : OrderTerm) : Except QueryError Select :=
  if q.isDistinct || q.limit.isSome || q.offset.isSome then .error .orderingAfterPaging
  else .ok { q with orderings := [term] }

/-- The statement ordered by one more term, unless it is ordered by that expression. -/
def appendOrdering (q : Select) (term : OrderTerm) : Select :=
  if q.orderings.any (·.expression = term.expression) then q
  else { q with orderings := q.orderings ++ [term] }

def clearOrdering (q : Select) : Select := { q with orderings := [] }

/-- The statement with all terms in the opposite direction, before paging. -/
def reverseOrderings (q : Select) : Except QueryError Select :=
  if q.limit.isSome || q.offset.isSome then .error .reverseAfterPaging
  else .ok { q with orderings := q.orderings.map OrderTerm.reversed }

def applyDistinct (q : Select) : Select := { q with isDistinct := true }

/-! ## Text -/

/-- A part of the statement behind its keyword, if there is such a part. -/
def clause (keyword : String) (part : Option String) : String :=
  match part with
  | none => ""
  | some part => keyword ++ part

/-- Texts in a row, if there are any. -/
def listed (items : List String) : Option String :=
  if items.isEmpty then none else some (", ".intercalate items)

/-- The statement as messages show it. -/
def text (q : Select) : String :=
  "SELECT " ++ (if q.isDistinct then "DISTINCT " else "")
    ++ (listed (q.output.map (·.text))).getD rootAlias
    ++ " FROM " ++ q.collection ++ " " ++ rootAlias
    ++ clause " WHERE " (q.predicate.map (·.text))
    ++ clause " ORDER BY " (listed (q.orderings.map (·.text)))
    ++ clause " OFFSET " (q.offset.map (·.text))
    ++ clause " LIMIT " (q.limit.map (·.text))

end Select

end Odm
