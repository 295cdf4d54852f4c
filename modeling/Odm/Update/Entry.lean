import Odm.Document
import Odm.Schema.EntityType

/-!
# Entries

An entry is an entity that is tracked until its changes are saved: its type, where it is in
its life, and its property values, now and as they were loaded or saved last.
-/

namespace Odm

/-- Where a tracked entity is in its life. -/
inductive EntityState where
  /-- No longer tracked. -/
  | detached
  | unchanged
  | deleted
  | modified
  | added
  deriving DecidableEq, Repr

namespace EntityState

def name : EntityState → String
  | .detached => "Detached"
  | .unchanged => "Unchanged"
  | .deleted => "Deleted"
  | .modified => "Modified"
  | .added => "Added"

/-- Whether there is something to save. -/
def isPending : EntityState → Bool
  | .added | .modified | .deleted => true
  | .detached | .unchanged => false

/-- Whether documents contain entities in this state. -/
def isStored : EntityState → Bool
  | .deleted | .detached => false
  | .unchanged | .modified | .added => true

/-- The state once everything has been saved. -/
def accepted : EntityState → EntityState
  | .deleted | .detached => .detached
  | .unchanged | .modified | .added => .unchanged

@[simp]
theorem isPending_accepted (state : EntityState) : state.accepted.isPending = false := by
  cases state <;> rfl

end EntityState

/-- A tracked entity. -/
structure Entry where
  /-- The number of entries tracked before this one. -/
  id : Nat
  /-- A type of the schema that the entry is saved with, which finds it by its name. -/
  entityType : EntityType
  state : EntityState
  /-- Property values by name. -/
  current : Document
  /-- The values as loaded or saved last, where they are known. -/
  baseline : Document
  /-- The entry in whose document this one is embedded. -/
  owner : Option Nat
  deriving DecidableEq, Repr

namespace Entry

/-- The entry as texts refer to it. -/
def label (id : Nat) : String := "#" ++ toString id

/-- The value as loaded or saved last, else the current one. -/
def baselineValue? (e : Entry) (property : String) : Option Value :=
  e.baseline.get? property <|> e.current.get? property

def setValue (e : Entry) (property : String) (v : Value) : Entry :=
  { e with current := e.current.insert property v }

def setState (e : Entry) (state : EntityState) : Entry := { e with state := state }

/-- The entry once everything has been saved. -/
def accept (e : Entry) : Entry :=
  { e with state := e.state.accepted, baseline := e.current }

end Entry

end Odm
