/-!
# Store errors
-/

namespace Odm

/-- What a document store can report instead of a result. -/
inductive StoreError where
  | bulkWrite (collection reason : String)
  | cancelled
  | other (reason : String)
  deriving DecidableEq, Repr

/-- The text shown for a store error. -/
def StoreError.message : StoreError → String
  | .bulkWrite collection reason =>
    "Bulk write to collection '" ++ collection ++ "' failed: " ++ reason
  | .cancelled => "The bulk write was cancelled"
  | .other reason => "Document store error: " ++ reason

/-- The name by which tools tell store errors apart. -/
def StoreError.code : StoreError → String
  | .bulkWrite _ _ => "Store.BulkWrite"
  | .cancelled => "Store.Cancelled"
  | .other _ => "Store.Other"

end Odm
