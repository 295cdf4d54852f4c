import Odm.Save.Root
import Odm.Store.DocumentStore
import Odm.Update.UnitOfWork

/-!
# Saving

Saving a unit of work finds the root documents of its pending entries, makes one directive
for each, and sends the directives of each collection to the store in one bulk write.

There are two ways to send them. *In order*, the first bulk write that fails is the last one.
*Together*, all of them are made whatever becomes of the others, unless the save has been
cancelled before they begin; afterwards the first failure in the order of the collections is
reported. Either way nothing is undone, and only a save without any failure has its changes
accepted.
-/

namespace Odm

/-- The directives for one collection. -/
abbrev Batch := String × List Directive

/-- Writes units of work to a document store. -/
structure Database where
  schema : Schema
  /-- Whether the changes of a successful save are taken as saved. -/
  acceptOnSuccess : Bool := true
  deriving DecidableEq, Repr

namespace Database

/-! ## Preparing -/

/-- The batches of groups of root entries, up to the first that cannot be made. -/
def prepareGroups (db : Database) (unit : UnitOfWork) :
    ChangeSet.Groups → Except SaveError (List Batch) × UnitOfWork
  | [] => (.ok [], unit)
  | (collection, roots) :: rest =>
    match unit.directives db.schema roots with
    | (.error e, unit) => (.error (.update e), unit)
    | (.ok directives, unit) =>
      let (later, unit) := db.prepareGroups unit rest
      (later.map ((collection, directives) :: ·), unit)

/-- The batches of a unit of work in the order of their collections. -/
def prepare (db : Database) (unit : UnitOfWork) :
    Except SaveError (List Batch) × UnitOfWork :=
  match unit.changes.groups db.schema with
  | .error e => (.error e, unit)
  | .ok groups => db.prepareGroups unit groups

/-! ## Writing -/

variable {σ : Type} [DocumentStore σ]

/-- Batches written in order up to the first that fails; how many documents they affect. -/
def writeInOrder (store : σ) : List Batch → Except StoreError Nat × σ
  | [] => (.ok 0, store)
  | (collection, directives) :: rest =>
    match DocumentStore.bulkWrite store collection directives with
    | (.error e, store) => (.error e, store)
    | (.ok counts, store) =>
      let (later, store) := writeInOrder store rest
      (later.map (counts.affected + ·), store)

/-- Batches written together, each unless the save has been cancelled by then. -/
def writeTogether (cancelled : σ → Bool) (store : σ) :
    List Batch → List (Except StoreError BulkCounts) × σ
  | [] => ([], store)
  | (collection, directives) :: rest =>
    let (result, store) :=
      DocumentStore.bulkWriteUnless (cancelled store) store collection directives
    let (later, store) := writeTogether cancelled store rest
    (result :: later, store)

/-- How many documents are affected, or the first failure. -/
def total : List (Except StoreError BulkCounts) → Except StoreError Nat
  | [] => .ok 0
  | result :: rest => do
    let counts ← result
    return counts.affected + (← total rest)

/-! ## Saving -/

/-- The unit of work after its batches have been written. -/
def finish (db : Database) (unit : UnitOfWork) (written : Except StoreError Nat) :
    UnitOfWork :=
  if written.isOk && db.acceptOnSuccess then { unit with changes := unit.changes.acceptAll }
  else unit

/-- A unit of work saved by a way of writing batches. -/
def saveBy (db : Database) (write : σ → List Batch → Except StoreError Nat × σ)
    (unit : UnitOfWork) (store : σ) : Except SaveError Nat × UnitOfWork × σ :=
  match db.prepare unit with
  | (.error e, unit) => (.error e, unit, store)
  | (.ok batches, unit) =>
    let (written, store) := write store batches
    (written.mapError .store, db.finish unit written, store)

/-- A unit of work saved with its batches written in order. -/
def save (db : Database) (unit : UnitOfWork) (store : σ) :
    Except SaveError Nat × UnitOfWork × σ :=
  db.saveBy writeInOrder unit store

/-- A unit of work saved with its batches written together, as long as the save is not
cancelled. -/
def saveTogether (db : Database) (cancelled : σ → Bool) (unit : UnitOfWork) (store : σ) :
    Except SaveError Nat × UnitOfWork × σ :=
  let write (store : σ) (batches : List Batch) :=
    let (results, store) := writeTogether cancelled store batches
    (total results, store)
  db.saveBy write unit store

end Database

end Odm
