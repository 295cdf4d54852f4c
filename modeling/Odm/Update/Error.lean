import Odm.Schema.Error
import Odm.Update.Entry

/-!
# Update errors

What can prevent the directive for an entry from being made.
-/

namespace Odm

inductive UpdateError where
  | invalidEntityState (state : EntityState)
  | missingPrimaryKey (entityType : String)
  | missingKeyValue (entityType property : String)
  | noValueGenerator (entityType property : String) (type : HostType)
  | unknownEntry (id : Nat)
  | schema (e : SchemaError)
  deriving DecidableEq, Repr

namespace UpdateError

/-- The text shown for an update error. -/
def message : UpdateError → String
  | .invalidEntityState state =>
    "The value provided for entityState must be Added, Modified, Unchanged, or Deleted, but was "
      ++ state.name ++ "."
  | .missingPrimaryKey entityType =>
    "Entity type '" ++ entityType
      ++ "' has no primary key and cannot be matched in its collection"
  | .missingKeyValue entityType property =>
    "Entity of type '" ++ entityType ++ "' has no value for key property '" ++ property ++ "'"
  | .noValueGenerator entityType property type =>
    "No value generator is available for '" ++ entityType ++ "." ++ property ++ "' of type '"
      ++ type.text ++ "'"
  | .unknownEntry id => "Entry " ++ Entry.label id ++ " is not tracked by this change set"
  | .schema e => e.message

/-- The name by which tools tell update errors apart; a schema error keeps its own. -/
def code : UpdateError → String
  | .invalidEntityState _ => "Update.InvalidEntityState"
  | .missingPrimaryKey _ => "Update.MissingPrimaryKey"
  | .missingKeyValue _ _ => "Update.MissingKeyValue"
  | .noValueGenerator _ _ _ => "Update.NoValueGenerator"
  | .unknownEntry _ => "Update.UnknownEntry"
  | .schema e => e.code

end UpdateError

end Odm
