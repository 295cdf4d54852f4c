import Odm.Store.DocumentStore
import Odm.Value.Text

/-!
# The memory store

Collections of documents held in memory, in the order in which they were inserted. The
directives of a bulk write are applied one after the other, up to the first that fails:
inserting a document with an `_id` that another one has.

A replacement is put where the replaced document was, and is not checked for its `_id`.
-/

namespace Odm

/-- The field by which stored documents are told apart. -/
def idElement : String := "_id"

namespace Collection

/-- Whether the document has an `_id` that one of the others has. -/
def isTaken (documents : List Document) (document : Document) : Bool :=
  (document.get? idElement).any fun id =>
    documents.any fun other => decide (other.get? idElement = some id)

/-- The first document that the filter matches replaced. -/
def replaceFirst (filter replacement : Document) : List Document → List Document
  | [] => []
  | document :: rest =>
    if document.Matches filter then replacement :: rest
    else document :: replaceFirst filter replacement rest

/-- The documents without the first that the filter matches. -/
def deleteFirst (filter : Document) : List Document → List Document
  | [] => []
  | document :: rest =>
    if document.Matches filter then rest else document :: deleteFirst filter rest

/-- What a replace does, counted. -/
def replaceCounts (filter replacement : Document) (documents : List Document) : BulkCounts :=
  match documents.find? fun document => decide (document.Matches filter) with
  | none => {}
  | some document =>
    if document = replacement then { matched := 1 } else { matched := 1, modified := 1 }

/-- What a delete does, counted. -/
def deleteCounts (filter : Document) (documents : List Document) : BulkCounts :=
  if documents.any fun document => decide (document.Matches filter) then { deleted := 1 }
  else {}

/-- One directive applied to the documents of a collection; as an error, the reason why it
cannot be. -/
def apply (directive : Directive) (documents : List Document) :
    Except String (BulkCounts × List Document) :=
  match directive with
  | .insert document =>
    if isTaken documents document then
      .error ("duplicate key " ++ (document.fieldOrNull idElement).text)
    else .ok ({ inserted := 1 }, documents ++ [document])
  | .replace filter replacement =>
    .ok (replaceCounts filter replacement documents,
      replaceFirst filter replacement documents)
  | .delete filter => .ok (deleteCounts filter documents, deleteFirst filter documents)

/-- Directives applied in their order, up to the first that fails. -/
def applyAll (documents : List Document) :
    List Directive → Except String BulkCounts × List Document
  | [] => (.ok {}, documents)
  | directive :: rest =>
    match apply directive documents with
    | .error reason => (.error reason, documents)
    | .ok (counts, documents) =>
      let (later, documents) := applyAll documents rest
      (later.map counts.add, documents)

end Collection

/-- Documents by collection. -/
structure MemoryStore where
  collections : Table String (List Document) := []
  deriving DecidableEq, Repr

namespace MemoryStore

/-- The documents of a collection, in the order in which they were inserted. -/
def documents (store : MemoryStore) (collection : String) : List Document :=
  (store.collections.get? collection).getD []

def count (store : MemoryStore) (collection : String) : Nat :=
  (store.documents collection).length

/-- All directives applied to one collection. -/
def bulkWrite (store : MemoryStore) (collection : String) (directives : List Directive) :
    Except StoreError BulkCounts × MemoryStore :=
  let (result, documents) := Collection.applyAll (store.documents collection) directives
  (result.mapError (.bulkWrite collection), ⟨store.collections.insert collection documents⟩)

instance : DocumentStore MemoryStore := ⟨bulkWrite⟩

end MemoryStore

end Odm
