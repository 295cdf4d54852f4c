import Odm.Schema.Error

/-!
# Query errors

What can go wrong while a query is built or rendered. An expression that the document
store cannot compute is no error by itself, it just has no scalar node; the
query operators report it as `untranslatable`.
-/

namespace Odm

inductive QueryError where
  | limitAlreadyApplied
  | offsetAlreadyApplied
  | orderingAfterPaging
  | reverseAfterPaging
  | unrelatedMember (entityType member : String)
  | unrelatedEntityType (entityType requested : String)
  | notEmbedded (entityType navigation : String)
  | projectionNotFound (path : String)
  | untranslatable (expression : String)
  | unsupportedOrdering (expression : String)
  | unboundParameter (name : String)
  | invalidPagingValue (value : String)
  | unsupportedFilter (expression : String)
  /-- A finished scalar has a node without a mapping. -/
  | unmapped (expression : String)
  | schema (e : SchemaError)
  deriving DecidableEq, Repr

/-- The text shown for a query error. -/
def QueryError.message : QueryError → String
  | .limitAlreadyApplied => "A limit has already been applied to this query"
  | .offsetAlreadyApplied => "An offset has already been applied to this query"
  | .orderingAfterPaging =>
    "Ordering cannot be replaced once distinct or paging has been applied"
  | .reverseAfterPaging =>
    "Orderings cannot be reversed once a limit or offset has been applied"
  | .unrelatedMember entityType member =>
    "Member '" ++ member ++ "' is not declared in the hierarchy of entity type '" ++ entityType
      ++ "'"
  | .unrelatedEntityType entityType requested =>
    "Entity type '" ++ requested ++ "' is not assignable to '" ++ entityType ++ "'"
  | .notEmbedded entityType navigation =>
    "Navigation '" ++ entityType ++ "." ++ navigation
      ++ "' doesn't point to an embedded entity."
  | .projectionNotFound path => "No projection is registered for member '" ++ path ++ "'"
  | .untranslatable expression =>
    "The expression '" ++ expression ++ "' could not be translated"
  | .unsupportedOrdering expression =>
    "Ordering by '" ++ expression ++ "' is not supported; only document fields can be sorted"
  | .unboundParameter name => "No value supplied for query parameter '" ++ name ++ "'"
  | .invalidPagingValue value =>
    "Paging value '" ++ value ++ "' is not a non-negative integer"
  | .unsupportedFilter expression =>
    "Expression '" ++ expression ++ "' cannot be rendered into a document filter"
  | .unmapped expression =>
    "expression '" ++ expression ++ "' reached verification without a type mapping"
  | .schema e => e.message

/-- The name by which tools tell query errors apart; a schema error keeps its own. -/
def QueryError.code : QueryError → String
  | .limitAlreadyApplied => "Query.LimitAlreadyApplied"
  | .offsetAlreadyApplied => "Query.OffsetAlreadyApplied"
  | .orderingAfterPaging => "Query.OrderingAfterPaging"
  | .reverseAfterPaging => "Query.ReverseAfterPaging"
  | .unrelatedMember _ _ => "Query.UnrelatedMember"
  | .unrelatedEntityType _ _ => "Query.UnrelatedEntityType"
  | .notEmbedded _ _ => "Query.NotEmbedded"
  | .projectionNotFound _ => "Query.ProjectionNotFound"
  | .untranslatable _ => "Query.Untranslatable"
  | .unsupportedOrdering _ => "Query.UnsupportedOrdering"
  | .unboundParameter _ => "Query.UnboundParameter"
  | .invalidPagingValue _ => "Query.InvalidPagingValue"
  | .unsupportedFilter _ => "Query.UnsupportedFilter"
  | .unmapped _ => "Panic"
  | .schema e => e.code

/-- A lookup in the schema as a step of a query. -/
def QueryError.ofSchema {α : Type} (result : Except SchemaError α) : Except QueryError α :=
  result.mapError .schema

end Odm
