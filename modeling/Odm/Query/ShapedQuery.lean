import Odm.Host.Substitution
import Odm.Query.Translator

/-!
# Query operators

A shaped query is a select statement together with the expression that makes each result.
The operators take host expressions, translate them and apply them to the statement; what
cannot be translated is reported with the text of the expression. Filters and keys are
lambdas with one parameter, which stands for the shaper of the query.
-/

namespace Odm

/-- A select statement and the expression that makes each of its results. -/
structure ShapedQuery where
  select : Select
  shaper : HostExpr
  deriving DecidableEq, Repr

namespace ShapedQuery

/-- The query of all entities of a type. -/
def create (t : Translator) (entityType : String) : Except QueryError ShapedQuery := do
  let found ← QueryError.ofSchema (t.schema.entityType entityType)
  let select ← Select.ofType t.schema found.name
  return ⟨select, .shaper found.name (.projected .root (.entity found.name))⟩

/-- The finished statement, its output fields made from the mapping. -/
def finish (query : ShapedQuery) : Select := query.select.applyProjection

/-- The scalar for an expression; `shown` is the expression that an error tells of. -/
def translateAs (t : Translator) (query : ShapedQuery) (shown e : HostExpr) :
    Except QueryError Scalar := do
  match ← t.translate query.select e with
  | some s => return s
  | none => .error (.untranslatable shown.text)

/-- The scalar for an expression without parameters. -/
def translate (t : Translator) (query : ShapedQuery) (e : HostExpr) :
    Except QueryError Scalar := query.translateAs t e e

/-- The scalar for the body of a lambda, its parameter standing for the query's shaper. -/
def translateLambda (t : Translator) (query : ShapedQuery) (lambda : HostExpr) :
    Except QueryError Scalar :=
  match lambda with
  | .lambda [(name, _)] body => query.translateAs t lambda (body.replace name query.shaper)
  | _ => .error (.untranslatable lambda.text)

/-- The query with its statement changed. -/
def withSelect (query : ShapedQuery) (select : Select) : ShapedQuery :=
  { query with select := select }

/-! ## Operators -/

/-- Only the results that satisfy a predicate. -/
def filter (t : Translator) (query : ShapedQuery) (predicate : HostExpr) :
    Except QueryError ShapedQuery := do
  let s ← query.translateLambda t predicate
  return query.withSelect (query.select.applyPredicate s)

/-- The results in the order of a key, instead of any order they had. -/
def orderBy (t : Translator) (query : ShapedQuery) (key : HostExpr) (ascending : Bool) :
    Except QueryError ShapedQuery := do
  let s ← query.translateLambda t key
  return query.withSelect (← query.select.applyOrdering ⟨s, ascending⟩)

/-- The results in the order of one more key. -/
def thenBy (t : Translator) (query : ShapedQuery) (key : HostExpr) (ascending : Bool) :
    Except QueryError ShapedQuery := do
  let s ← query.translateLambda t key
  return query.withSelect (query.select.appendOrdering ⟨s, ascending⟩)

/-- Only so many of the first results. -/
def take (t : Translator) (query : ShapedQuery) (count : HostExpr) :
    Except QueryError ShapedQuery := do
  let s ← query.translate t count
  return query.withSelect (← query.select.applyLimit s)

/-- All results but so many of the first. -/
def skip (t : Translator) (query : ShapedQuery) (count : HostExpr) :
    Except QueryError ShapedQuery := do
  let s ← query.translate t count
  return query.withSelect (← query.select.applyOffset s)

/-- Every result once. -/
def distinct (query : ShapedQuery) : ShapedQuery :=
  query.withSelect query.select.applyDistinct

/-- The results in the opposite order. -/
def reverse (query : ShapedQuery) : Except QueryError ShapedQuery := do
  return query.withSelect (← query.select.reverseOrderings)

/-- At most `n` results, of those that satisfy a predicate if one is given. -/
def limitResults (t : Translator) (query : ShapedQuery) (predicate : Option HostExpr) (n : Nat) :
    Except QueryError ShapedQuery := do
  let query ← match predicate with
    | some p => query.filter t p
    | none => pure query
  query.take t (.constant (.int n) .int32)

/-- The first result, if there is one. -/
def first (t : Translator) (query : ShapedQuery) (predicate : Option HostExpr) :
    Except QueryError ShapedQuery := query.limitResults t predicate 1

/-- The only result; up to two are read, to notice a second one. -/
def single (t : Translator) (query : ShapedQuery) (predicate : Option HostExpr) :
    Except QueryError ShapedQuery := query.limitResults t predicate 2

end ShapedQuery

end Odm
