import Odm.Schema
import Odm.Update.ChangeSet

/-!
# Composition of documents

The document of an entry has a field for each stored property that has a value, the
discriminator where entities of more than one type share a collection or a field, and the
documents of the entries it owns under the fields of its owning navigations. Deleted entries
are left out, and so are empty arrays.

Entries come after their owners, so the documents are composed from the last entry back to
the first: when an entry's turn comes, everything it owns has been composed. A document that
cannot be composed is an error only where it is needed.
-/

namespace Odm

/-- An entry together with its document. -/
abbrev Composed := Entry × Except UpdateError Document

namespace Entry

/-- The stored properties that have values. -/
def fields (s : Schema) (e : Entry) : Document :=
  (s.properties e.entityType.name).foldl
    (fun (document : Document) p =>
      match e.current.get? p.name with
      | some v => if p.isPersisted then document.insert p.element v else document
      | none => document)
    []

/-- The document with a discriminator, where one is needed. -/
def discriminate (s : Schema) (e : Entry) (document : Document) : Document :=
  if s.isPolymorphic e.entityType then
    document.insert s.discriminatorElement (.str e.entityType.discriminator)
  else document

/-- The discriminator comes over a field with its element. -/
theorem get?_discriminate (s : Schema) (e : Entry) (document : Document) (element : String) :
    (e.discriminate s document).get? element
      = if s.isPolymorphic e.entityType ∧ s.discriminatorElement = element then
          some (.str e.entityType.discriminator)
        else document.get? element := by
  rw [discriminate]
  by_cases hpolymorphic : s.isPolymorphic e.entityType
  · rw [if_pos hpolymorphic]
    by_cases helement : s.discriminatorElement = element
    · rw [if_pos ⟨hpolymorphic, helement⟩, ← helement, Table.get?_insert_self]
    · rw [if_neg fun h => helement h.2, Table.get?_insert_ne _ (Ne.symm helement)]
  · rw [if_neg hpolymorphic, if_neg fun h => hpolymorphic h.1]

/-- The entries that a navigation to `target` leads to, with their documents. -/
def parts (s : Schema) (e : Entry) (target : String) (later : List Composed) : List Composed :=
  later.filter fun (part, _) =>
    part.owner = some e.id && part.state.isStored && s.isAssignable target part.entityType.name

/-- The document with the objects that a navigation embeds. -/
def embed (s : Schema) (e : Entry) (later : List Composed) (document : Document)
    (n : Navigation) : Except UpdateError Document :=
  if !n.isOwnership then .ok document
  else do
    let target ← (s.entityType n.target).mapError .schema
    let element := target.embeddedName?.getD n.name
    let parts := e.parts s target.name later
    if n.isCollection then
      let items ← parts.mapM Prod.snd
      if items.isEmpty then return document
      return document.insert element (.arr (items.map Document.toValue))
    else
      match parts with
      | [] => return document
      | (_, part) :: _ => return document.insert element (Document.toValue (← part))

/-- The document of an entry, from the documents of the entries tracked later. -/
def compose (s : Schema) (e : Entry) (later : List Composed) : Except UpdateError Document :=
  (s.navigations e.entityType.name).foldlM (e.embed s later) (e.discriminate s (e.fields s))

end Entry

namespace ChangeSet

/-- Entries with their documents, from the last one back. -/
def composeEntries (s : Schema) : List Entry → List Composed
  | [] => []
  | e :: rest =>
    let later := composeEntries s rest
    (e, e.compose s later) :: later

/-- The document of an entry, with everything embedded in it. -/
def compose (s : Schema) (changes : ChangeSet) (id : Nat) : Except UpdateError Document :=
  match (composeEntries s changes.entries)[id]? with
  | some (_, document) => document
  | none => .error (.unknownEntry id)

end ChangeSet

end Odm
