import Odm.Store.Error
import Odm.Update.Error

/-!
# Save errors

What can go wrong while a unit of work is saved.
-/

namespace Odm

inductive SaveError where
  /-- An embedded entity without an owner whose document it could be in. -/
  | orphanedEntity (entityType : String)
  | update (e : UpdateError)
  | store (e : StoreError)
  deriving DecidableEq, Repr

namespace SaveError

/-- A lookup in the schema as a step of a save. -/
def ofSchema (e : SchemaError) : SaveError := .update (.schema e)

/-- The text shown for a save error. -/
def message : SaveError → String
  | .orphanedEntity entityType => "Encountered orphaned document of type " ++ entityType ++ "."
  | .update e => e.message
  | .store e => e.message

/-- The name by which tools tell save errors apart; an error from elsewhere keeps its own. -/
def code : SaveError → String
  | .orphanedEntity _ => "Save.OrphanedEntity"
  | .update e => e.code
  | .store e => e.code

end SaveError

end Odm
