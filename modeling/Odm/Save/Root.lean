import Odm.Save.Error
import Odm.Schema
import Odm.Update.ChangeSet

/-!
# Root entries

Every pending entry is saved with the root entry in whose document it is stored: itself, if
entities of its type are stored in documents of their own, or else the root of its owner.
-/

namespace Odm.ChangeSet

/-- The root of an entry, looked for among entries from the last one back. Owners are tracked
before what they own, so the owner of an entry is among those that remain. -/
def climb (s : Schema) : List Entry → Nat → Except SaveError Nat
  | [], id => .error (.update (.unknownEntry id))
  | e :: earlier, id =>
    if e.id ≠ id then climb s earlier id
    else if s.isDocumentRoot e.entityType.name then .ok id
    else
      match e.owner with
      | some owner => climb s earlier owner
      | none => .error (.orphanedEntity e.entityType.name)

/-- The entry in whose document an entry is stored. -/
def root (s : Schema) (changes : ChangeSet) (id : Nat) : Except SaveError Nat :=
  climb s changes.entries.reverse id

/-- The roots of the pending entries, each once and in the order of their ids. -/
def roots (s : Schema) (changes : ChangeSet) : Except SaveError (List Nat) := do
  let found ← changes.pending.mapM (changes.root s)
  return (List.range changes.count).filter fun id => found.contains id

/-- The root entries by the collections they are stored in. -/
abbrev Groups := Table String (List Nat)

/-- The groups with one more root entry, in the group of its collection. -/
def addToGroup (s : Schema) (changes : ChangeSet) (groups : Groups) (root : Nat) :
    Except SaveError Groups := do
  let e ← (changes.entry root).mapError .update
  let collection ← (s.collectionName e.entityType.name).mapError SaveError.ofSchema
  return groups.insert collection ((groups.get? collection).getD [] ++ [root])

/-- The roots of the pending entries, grouped by collection. -/
def groups (s : Schema) (changes : ChangeSet) : Except SaveError Groups := do
  (← changes.roots s).foldlM (changes.addToGroup s) []

end Odm.ChangeSet
