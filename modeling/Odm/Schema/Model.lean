import Odm.Schema
import Odm.Schema.Convention
import Odm.Schema.Validation

/-!
# Models

A model is a catalog as its author wrote it. Finishing it checks the base types and links
each type to those below it, runs the conventions in their order and validates the result;
what comes out is a schema. Bases are not looked at again once the conventions have begun,
so conventions have to leave them as they are.
-/

namespace Odm

/-- The field that holds discriminators unless the author chooses another one. -/
def defaultDiscriminatorElement : String := "_t"

/-- A catalog before its conventions have run. -/
structure Model extends Catalog where
  /-- The field that tells the types of a hierarchy apart. -/
  discriminatorElement : String := defaultDiscriminatorElement
  deriving DecidableEq, Repr, Inhabited

/-- The schema of a model after some steps of completion. -/
def Model.complete (m : Model) (steps : List CatalogStep) : Except SchemaError Schema := do
  m.checkBases
  let catalog ← m.link.run steps
  catalog.validate
  return { catalog with discriminatorElement := m.discriminatorElement }

/-- The schema of a model under a list of conventions. -/
def Model.finish (m : Model) (conventions : List Convention) : Except SchemaError Schema :=
  m.complete (conventions.map Convention.apply)

end Odm
