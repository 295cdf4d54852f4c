import Odm.Update.Error

/-!
# Change sets

A change set has the entries of one unit of work, numbered in the order in which they were
tracked. An embedded entity names its owner, which is tracked before it, so that ids go down
on the way from an entity to the root document it is stored in, and up on the way back.
-/

namespace Odm

/-- The tracked entities of a unit of work. -/
structure ChangeSet where
  entries : List Entry := []
  deriving DecidableEq, Repr

namespace ChangeSet

def entry? (changes : ChangeSet) (id : Nat) : Option Entry := changes.entries[id]?

/-- The entry of that id, or the error that there is none. -/
def entry (changes : ChangeSet) (id : Nat) : Except UpdateError Entry :=
  match changes.entry? id with
  | some e => .ok e
  | none => .error (.unknownEntry id)

/-- The number of entries, which is the id that the next one gets. -/
def count (changes : ChangeSet) : Nat := changes.entries.length

/-- What an entity's values were before it is changed: unknown for an added one. -/
def initialBaseline (state : EntityState) (values : Document) : Document :=
  if state = .added then [] else values

/-- The change set with one more entry. -/
def append (changes : ChangeSet) (t : EntityType) (state : EntityState) (values : Document)
    (owner : Option Nat) : ChangeSet :=
  ⟨changes.entries
    ++ [⟨changes.count, t, state, values, initialBaseline state values, owner⟩]⟩

/-- The change set with one more entity, and the id that it got. -/
def track (changes : ChangeSet) (t : EntityType) (state : EntityState) (values : Document) :
    Nat × ChangeSet :=
  (changes.count, changes.append t state values none)

/-- The change set with one more entity that is embedded in the document of its owner. -/
def trackOwned (changes : ChangeSet) (owner : Nat) (t : EntityType) (state : EntityState)
    (values : Document) : Except UpdateError (Nat × ChangeSet) := do
  let _ ← changes.entry owner
  return (changes.count, changes.append t state values (some owner))

/-- The change set with one of its entries changed. -/
def modify (changes : ChangeSet) (id : Nat) (f : Entry → Entry) : ChangeSet :=
  ⟨changes.entries.modify id f⟩

/-- The entries embedded in the document of an entry, in the order of their ids. -/
def owned (changes : ChangeSet) (owner : Nat) : List Entry :=
  changes.entries.filter (·.owner = some owner)

/-- The ids of the entries with something to save. -/
def pending (changes : ChangeSet) : List Nat :=
  (changes.entries.filter (·.state.isPending)).map (·.id)

/-- The change set once everything has been saved. -/
def acceptAll (changes : ChangeSet) : ChangeSet := ⟨changes.entries.map Entry.accept⟩

/-- **Nothing is pending once everything has been saved.** -/
theorem pending_acceptAll (changes : ChangeSet) : changes.acceptAll.pending = [] := by
  simp [pending, acceptAll, Entry.accept]

end ChangeSet

end Odm
