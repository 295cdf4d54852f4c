import Odm.Proofs.Update.Contents
import Odm.Proofs.Update.Edits

/-!
# What documents hold

Three kinds of writers put values under the elements of a document, one after the other: the
properties of the entry, its discriminator and its owning navigations, and those of base types
before those of derived ones. Under each element the last writer stays, and what it writes can be
told without the others.

An owning navigation writes the documents of stored children, and these are laid out in the same
way. Children are tracked after their owners, so that this comes to an end; under the usual
conventions the targets of owning navigations are known, so that nothing on the way fails.
-/

namespace Odm

namespace Entry

/-- What an element holds of the properties: the current value of the last stored one under that
element that has one. -/
def propertyAt? (s : Schema) (e : Entry) (element : String) : Option Value :=
  ((s.properties e.entityType.name).reverse.find? fun p => e.puts p && p.element = element).bind
    fun p => e.current.get? p.name

/-- What an element holds of the discriminator, where one is needed. -/
def discriminatorAt? (s : Schema) (e : Entry) (element : String) : Option Value :=
  if s.isPolymorphic e.entityType ∧ s.discriminatorElement = element then
    some (.str e.entityType.discriminator)
  else none

theorem get?_discriminate_fields (s : Schema) (e : Entry) (element : String) :
    (e.discriminate s (e.fields s)).get? element
      = (e.discriminatorAt? s element <|> e.propertyAt? s element) := by
  rw [get?_discriminate, get?_fields_eq, discriminatorAt?, propertyAt?]
  split <;> rfl

end Entry

namespace ChangeSet

/-- The stored children of an entry that a navigation can lead to, in the order of tracking. -/
def children (s : Schema) (changes : ChangeSet) (e : Entry) (n : Navigation) : List Entry :=
  changes.entries.filter (e.leadsTo s n)

/-- What a navigation makes of the documents of children: an array of all, or the first one. -/
def childrenAt? (s : Schema) (changes : ChangeSet) (documentOf : Nat → Document) (e : Entry)
    (n : Navigation) : Option Value :=
  let values := (changes.children s e n).map fun child => (documentOf child.id).toValue
  if n.isCollection then some (.arr values) else values.head?

/-- What an element holds: the children of the last owning navigation under that element that
leads to any, else the discriminator, else a property. -/
def heldAt? (s : Schema) (changes : ChangeSet) (documentOf : Nat → Document) (e : Entry)
    (element : String) : Option Value :=
  (changes.holder? s e element).bind (changes.childrenAt? s documentOf e)
    <|> e.discriminatorAt? s element
    <|> e.propertyAt? s element

variable {s : Schema} {changes : ChangeSet} {e : Entry}

theorem children_ne_nil_of_holder {element : String} {n : Navigation}
    (h : changes.holder? s e element = some n) : changes.children s e n ≠ [] := by
  have hleads := List.find?_some h
  rw [Bool.and_eq_true, Bool.and_eq_true, List.any_eq_true] at hleads
  obtain ⟨child, hchild, hleads⟩ := hleads.1.2
  exact List.ne_nil_of_mem (List.mem_filter.mpr ⟨hchild, hleads⟩)

/-- **The last navigation that leads to any children decides what is embedded.** -/
theorem childrenAt?_of_holder (documentOf : Nat → Document) {element : String} {n : Navigation}
    (h : changes.holder? s e element = some n) :
    changes.childrenAt? s documentOf e n
      = some (e.embedded s (changes.family (fun _ p => documentOf p.id) []) n) := by
  cases hcollection : n.isCollection with
  | true =>
    rw [embedded_collection _ hcollection, childrenAt?, hcollection]
    rfl
  | false =>
    obtain ⟨first, rest, hchildren⟩ := List.exists_cons_of_ne_nil (children_ne_nil_of_holder h)
    have hfirst : changes.entries.find? (e.leadsTo s n) = some first := by
      rw [← List.head?_filter, ← children, hchildren]
      rfl
    rw [embedded_reference _ hcollection, hfirst, childrenAt?, hcollection, hchildren]
    rfl

/-- **A document holds under each element what its last writer puts there.** -/
theorem Tracked.get?_documentOf (h : changes.Tracked s) (he : e ∈ changes.entries)
    (element : String) :
    (changes.documentOf s .nothing e.id).get? element
      = changes.heldAt? s (changes.documentOf s .nothing) e element := by
  have hdocument : changes.documentOf s .nothing e.id
      = e.document s (changes.family (fun _ p => changes.documentOf s .nothing p.id) []) :=
    h.documentOf_entries he rfl
  rw [hdocument, get?_family, heldAt?, Entry.get?_discriminate_fields]
  cases hholder : changes.holder? s e element with
  | none => rfl
  | some n => rw [Option.map_some, Option.bind_some, childrenAt?_of_holder _ hholder]

/-- Children are tracked after their owner. -/
theorem Tracked.lt_of_mem_children (h : changes.Tracked s) {n : Navigation} {child : Entry}
    (hchild : child ∈ changes.children s e n) : e.id < child.id := by
  obtain ⟨hmem, hleads⟩ := List.mem_filter.mp hchild
  simp only [Entry.leadsTo, Bool.and_eq_true, decide_eq_true_eq] at hleads
  exact h.owner child hmem e.id hleads.1.1

end ChangeSet

open ChangeSet in
/-- **Documents are laid out as documented**, for a schema with the usual conventions and whatever
edits made the change set, if entities of types of the schema are tracked. Every entry has a
document. It holds, under each element, the documents of the children of the last owning navigation
that leads to any; else the discriminator, where one is needed; else the current value of the last
stored property that has one; and else nothing. -/
theorem documents_laid_out {m : Model} {naming : CollectionNaming} {s : Schema}
    (hs : m.finish (Convention.defaults naming) = .ok s) {edits : List Edit}
    (hedits : ∀ edit ∈ edits, ∀ t ∈ edit.entityType?, s.find? t.name = some t) :
    ∃ documentOf : Nat → Document, ∀ e ∈ (made edits).entries,
      (made edits).compose s e.id = .ok (documentOf e.id)
      ∧ (∀ n, ∀ child ∈ (made edits).children s e n, e.id < child.id)
      ∧ ∀ element, (documentOf e.id).get? element
        = (made edits).heldAt? s documentOf e element := by
  have hknows := (Model.finish_ownsTargets hs).knowsTargets
  have htracked : (made edits).Tracked s := (ordered_made hedits).tracked
  refine ⟨(made edits).documentOf s .nothing, fun e he => ⟨?_, ?_, ?_⟩⟩
  · exact compose_eq_documentOf hknows (htracked.entry?_id he)
  · exact fun n child hchild => htracked.lt_of_mem_children hchild
  · exact htracked.get?_documentOf he

/-- A family is tracked with two homes and two children, one of whom has a toy; then the older child
is deleted and the family gets another number. -/
def householdEdits : List ChangeSet.Edit :=
  let typeAt (i : Fin 4) : EntityType := household.types.get i
  [.track (typeAt 2) .added [("Id", .int 1)],
    .trackOwned 0 (typeAt 0) .added [("City", .str "Rome")],
    .trackOwned 0 (typeAt 0) .added [("City", .str "Oslo")],
    .trackOwned 0 (typeAt 1) .added [("Name", .str "Ada")],
    .trackOwned 0 (typeAt 1) .added [("Name", .str "Bo")],
    .trackOwned 4 (typeAt 3) .added [("Label", .str "ball")],
    .setState 3 .deleted,
    .setValue 0 "Id" (.int 2)]

open ChangeSet in
/-- The document of the family holds the first home, the child that is left and the number. -/
theorem documents_laid_out_household :
    householdModel.finish (Convention.defaults .typeName) = .ok household
      ∧ (∀ edit ∈ householdEdits, ∀ t ∈ edit.entityType?, household.find? t.name = some t)
      ∧ ∃ documentOf : Nat → Document,
        (made householdEdits).compose household 0 = .ok (documentOf 0)
        ∧ (documentOf 0).get? "Home" = some (documentOf 1).toValue
        ∧ (documentOf 0).get? "Children" = some (.arr [(documentOf 4).toValue])
        ∧ (documentOf 0).get? "_id" = some (.int 2)
        ∧ (documentOf 0).get? "Name" = none := by
  have hedits : ∀ edit ∈ householdEdits, ∀ t ∈ edit.entityType?,
      household.find? t.name = some t := by decide
  obtain ⟨documentOf, hdocuments⟩ := documents_laid_out finish_householdModel hedits
  obtain ⟨hfamily, _, hheld⟩ := hdocuments _ List.mem_cons_self
  exact ⟨finish_householdModel, hedits, documentOf, hfamily, hheld "Home", hheld "Children",
    hheld "_id", hheld "Name"⟩

end Odm
