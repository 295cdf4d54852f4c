import Odm.Document

/-!
# Write directives

A directive tells a document store to insert, replace or delete one document. Replaces and
deletes carry a filter, and concern the first document that it matches.
-/

namespace Odm

inductive DirectiveKind where
  | insert
  | replace
  | delete
  deriving DecidableEq, Repr

/-- The name of the store's operation. -/
def DirectiveKind.operation : DirectiveKind → String
  | .insert => "insertOne"
  | .replace => "replaceOne"
  | .delete => "deleteOne"

/-- A change of one document. -/
inductive Directive where
  | insert (document : Document)
  | replace (filter replacement : Document)
  | delete (filter : Document)
  deriving DecidableEq, Repr

namespace Directive

def kind : Directive → DirectiveKind
  | .insert _ => .insert
  | .replace _ _ => .replace
  | .delete _ => .delete

/-- What the stored document has to match. -/
def filter? : Directive → Option Document
  | .insert _ => none
  | .replace filter _ | .delete filter => some filter

end Directive

end Odm
