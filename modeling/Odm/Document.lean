import Odm.Table
import Odm.Value

/-!
# Documents

A document is a table of values by element name. The same shape holds the
property values of an entity and the filters that find a stored document.
-/

namespace Odm

/-- A document body, a filter, or the property values of an entity. -/
abbrev Document := Table String Value

namespace Document

/-- The document as a value that can be nested in another one. -/
def toValue (document : Document) : Value := .obj document

/-- A field of the document, null when it is absent. -/
def fieldOrNull (document : Document) (name : String) : Value :=
  (document.get? name).getD .null

/-- A filter matches the documents that hold its value, or null for an absent field,
at each of its element names. -/
def Matches (document filter : Document) : Prop :=
  ∀ entry ∈ filter, document.fieldOrNull entry.1 = entry.2

instance (document filter : Document) : Decidable (document.Matches filter) :=
  inferInstanceAs (Decidable (∀ entry ∈ filter, document.fieldOrNull entry.1 = entry.2))

end Document

end Odm
