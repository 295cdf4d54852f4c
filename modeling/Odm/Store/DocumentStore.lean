import Odm.Store.Counts
import Odm.Store.Directive
import Odm.Store.Error

/-!
# Document stores

A document store takes directives for one collection in bulk. It may fail, and what it did
before it failed is not undone, so a bulk write always comes back with the store as it is
now.
-/

namespace Odm

/-- States of a document store. -/
class DocumentStore (σ : Type) where
  /-- All directives applied to one collection. -/
  bulkWrite (store : σ) (collection : String) (directives : List Directive) :
    Except StoreError BulkCounts × σ

namespace DocumentStore

variable {σ : Type} [DocumentStore σ]

/-- A bulk write that does not begin once it has been cancelled. -/
def bulkWriteUnless (cancelled : Bool) (store : σ) (collection : String)
    (directives : List Directive) : Except StoreError BulkCounts × σ :=
  if cancelled then (.error .cancelled, store) else bulkWrite store collection directives

end DocumentStore

end Odm
