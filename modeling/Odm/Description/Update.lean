import Odm.Description.Record
import Odm.Save.Database

/-!
# Descriptions of saves

Directives and the counts of bulk writes are described as document stores take and give them.
An entry is described with its current values and with the baseline values of these and of
any other properties that are asked for.
-/

namespace Odm

def UpdateError.describe (e : UpdateError) : Value := .failure e.code e.message

def StoreError.describe (e : StoreError) : Value := .failure e.code e.message

def SaveError.describe (e : SaveError) : Value := .failure e.code e.message

def DirectiveKind.code : DirectiveKind → String
  | .insert => "insert"
  | .replace => "replace"
  | .delete => "delete"

def Directive.describe (d : Directive) : Value :=
  let op := ("op", Value.str d.kind.operation)
  match d with
  | .insert document => .record [op, ("document", document.toValue)]
  | .replace filter replacement =>
    .record [op, ("filter", filter.toValue), ("replacement", replacement.toValue)]
  | .delete filter => .record [op, ("filter", filter.toValue)]

def BulkCounts.describe (counts : BulkCounts) : Value :=
  .record [
    ("affected", .count counts.affected),
    ("counts", .record [
      ("inserted_count", .count counts.inserted),
      ("matched_count", .count counts.matched),
      ("modified_count", .count counts.modified),
      ("deleted_count", .count counts.deleted)])]

/-- An entry, with the baseline values of its own properties and of others. -/
def Entry.describe (e : Entry) (others : List String) : Value :=
  let names := Table.keys (Table.ofEntries ((e.current.keys ++ others).map fun n => (n, ())))
  .record [
    ("id", .str (label e.id)),
    ("type", .str e.entityType.name),
    ("state", .str e.state.name),
    ("current", e.current.toValue),
    ("original", .items (fun n => .arr [.str n, (e.baselineValue? n).getD .null]) names)]

/-- The state that has the name. -/
def EntityState.ofName? (name : String) : Option EntityState :=
  [.detached, .unchanged, .deleted, .modified, .added].find? fun state =>
    decide (state.name = name)

end Odm
