import Mathlib.Data.Set.Finite.List
import Mathlib.Logic.Relation
import Mathlib.Order.WellFounded
import Odm.Proofs.Schema.Embedded

/-!
# Owners of owners

An embedded type has an owner, the one that is recorded at the root of its hierarchy. Moving from
owner to owner leads to a type with documents of its own, unless the moves come back to a type that
they have passed: then there is no way out, since a type has one owner only. Validation looks at
one type at a time and accepts such circles.

Owners that the conventions record are types of the schema, because they declare the navigation
that owns. An ownership that an author wrote into the model may name any other type, and there the
moves end too.
-/

namespace Relation

/-- Without circles, steps between finitely many things end. -/
theorem wellFounded_of_acyclic {α : Type} [Finite α] {r : α → α → Prop}
    (h : ∀ a, ¬ TransGen r a a) : WellFounded fun b a => r a b := by
  have hirrefl : Std.Irrefl (TransGen fun b a => r a b) :=
    ⟨fun a hcircle => h a (transGen_swap.mp hcircle)⟩
  have hends : WellFounded (TransGen fun b a => r a b) :=
    Finite.wellFounded_of_trans_of_irrefl _
  exact Subrelation.wf (fun hstep => .single hstep) hends

end Relation

namespace Odm

namespace Schema

variable {s : Schema} {name owner root : String}

/-- The owner that is recorded at the root of a type's hierarchy. -/
def ownerOf? (s : Schema) (name : String) : Option String :=
  ((s.root? name).bind (·.ownership)).map (·.owner)

/-- One move, from an embedded type to its owner. -/
def MovesTo (s : Schema) (name owner : String) : Prop :=
  ¬ s.isDocumentRoot name ∧ s.ownerOf? name = some owner

instance (s : Schema) (name owner : String) : Decidable (s.MovesTo name owner) :=
  inferInstanceAs (Decidable (¬ s.isDocumentRoot name ∧ s.ownerOf? name = some owner))

theorem MovesTo.contains (h : s.MovesTo name owner) : s.contains name := by
  obtain ⟨o, ho, _⟩ := Option.map_eq_some_iff.mp h.2
  obtain ⟨t, ht, _⟩ := Option.bind_eq_some_iff.mp ho
  exact contains_of_root? ht

/-- A type has one owner only. -/
theorem rightUnique_movesTo (s : Schema) : Relator.RightUnique s.MovesTo := by
  intro name owner owner' h h'
  exact Option.some.inj (h.2.symm.trans h'.2)

/-! ## Circles -/

/-- Moves that lead to a document root do not come back to where they began. -/
theorem not_circle_of_arrival (h : Relation.ReflTransGen s.MovesTo name root)
    (hroot : s.isDocumentRoot root) : ¬ Relation.TransGen s.MovesTo name name := by
  induction h using Relation.ReflTransGen.head_induction_on with
  | refl =>
    intro hcircle
    obtain ⟨_, hmove, _⟩ := Relation.TransGen.head'_iff.mp hcircle
    exact hmove.1 hroot
  | head hmove _ ih =>
    -- the first move is the same on both ways, so its end is on the circle too
    intro hcircle
    obtain ⟨owner, hmove', hback⟩ := Relation.TransGen.head'_iff.mp hcircle
    cases s.rightUnique_movesTo hmove hmove'
    exact ih (Relation.TransGen.tail' hback hmove)

/-- Where the moves lead to a document root, everything that they pass is on the way to it. -/
theorem arrival_of_passed (h : Relation.ReflTransGen s.MovesTo name root)
    (hroot : s.isDocumentRoot root) (howner : Relation.ReflTransGen s.MovesTo name owner) :
    Relation.ReflTransGen s.MovesTo owner root := by
  rcases Relation.ReflTransGen.total_of_right_unique s.rightUnique_movesTo h howner
    with hbehind | hbefore
  · rcases Relation.ReflTransGen.cases_head hbehind with rfl | ⟨_, hmove, _⟩
    · exact .refl
    · exact absurd hroot hmove.1
  · exact hbefore

/-- The types that the moves from a type pass, with the moves between them. -/
abbrev Passed (s : Schema) (name : String) : Type :=
  {owner // Relation.ReflTransGen s.MovesTo name owner}

/-- The moves from a type end, if all that they pass are types of the schema and none is passed
twice. -/
theorem wellFounded_moves
    (hpassed : ∀ owner, Relation.ReflTransGen s.MovesTo name owner →
      s.contains owner ∧ ¬ Relation.TransGen s.MovesTo owner owner) :
    WellFounded fun next owner : s.Passed name => s.MovesTo owner.1 next.1 := by
  have hfinite : Finite (s.Passed name) := by
    refine Set.Finite.subset (List.finite_toSet (s.types.map (·.name))) ?_
    intro owner howner
    obtain ⟨t, ht⟩ := Option.isSome_iff_exists.mp (hpassed owner howner).1
    exact List.mem_map.mpr ⟨t, Catalog.find?_mem ht, Catalog.find?_name ht⟩
  refine Relation.wellFounded_of_acyclic (r := fun owner next : s.Passed name =>
    s.MovesTo owner.1 next.1) ?_
  intro owner hcircle
  exact (hpassed owner.1 owner.2).2 (hcircle.lift Subtype.val fun _ _ hmove => hmove)

/-- **Moves arrive unless they turn in a circle**, where every embedded type of the schema has an
owner. -/
theorem exists_arrival
    (howners : ∀ owner, s.contains owner → ¬ s.isDocumentRoot owner → ∃ next, s.MovesTo owner next)
    (hpassed : ∀ owner, Relation.ReflTransGen s.MovesTo name owner →
      s.contains owner ∧ ¬ Relation.TransGen s.MovesTo owner owner) :
    ∃ root, Relation.ReflTransGen s.MovesTo name root ∧ s.isDocumentRoot root := by
  have harrives : ∀ owner : s.Passed name, ∃ root,
      Relation.ReflTransGen s.MovesTo owner.1 root ∧ s.isDocumentRoot root := by
    intro owner
    induction owner using (wellFounded_moves hpassed).induction with
    | h owner ih =>
      by_cases hroot : s.isDocumentRoot owner.1
      · exact ⟨owner.1, .refl, hroot⟩
      · obtain ⟨next, hmove⟩ := howners owner.1 (hpassed owner.1 owner.2).1 hroot
        obtain ⟨root, hmoves, hstored⟩ := ih ⟨next, owner.2.tail hmove⟩ hmove
        exact ⟨root, .head hmove hmoves, hstored⟩
  exact harrives ⟨name, .refl⟩

end Schema

/-! ## Recorded owners -/

namespace Model

variable {m : Model} {naming : CollectionNaming} {s : Schema}

/-- The recorded owner of a type declares an owning navigation to it, so it is a type of the model.
Where no owning navigation leads to the type, its ownership is what the author wrote down. -/
theorem ownership_of_finished (hdeclares : m.DeclaresMembers) {t : EntityType} {o : Ownership}
    (ho : (m.finished naming t).ownership = some o) :
    (∃ n ∈ m.owning, n.target = t.name ∧ o = Convention.ownershipOf n ∧ m.contains o.owner)
      ∨ (∀ n ∈ m.owning, n.target ≠ t.name) ∧ t.ownership = some o := by
  rw [finished_ownership] at ho
  cases hfirst : m.owning.find? (·.target = (m.linked t).name) with
  | none =>
    rw [Convention.ownedBy_of_none hfirst] at ho
    refine .inr ⟨fun n hn htarget => ?_, ho⟩
    exact absurd (decide_eq_true htarget) (List.find?_eq_none.mp hfirst n hn)
  | some n =>
    rw [Convention.ownedBy_of_some hfirst] at ho
    cases ho
    have hn := List.mem_of_find?_eq_some hfirst
    have htarget := List.find?_some hfirst
    refine .inl ⟨n, hn, of_decide_eq_true htarget, rfl, ?_⟩
    -- the owner is the type that declares the navigation
    obtain ⟨u, hu, hnu⟩ := List.mem_flatMap.mp (List.mem_filter.mp hn).1
    have hdeclared : n.declaringType = u.name := (hdeclares u hu).navigations n hnu
    rw [Catalog.contains, Convention.ownershipOf, hdeclared]
    exact List.find?_isSome.mpr ⟨u, hu, decide_eq_true rfl⟩

/-- Every embedded type has an owner. It is a type of the schema, or the author of the model wrote
it down. -/
theorem exists_owner (hdeclares : m.DeclaresMembers)
    (h : m.finish (Convention.defaults naming) = .ok s) {name : String}
    (hname : s.contains name) (hembedded : ¬ s.isDocumentRoot name) :
    ∃ owner, s.MovesTo name owner
      ∧ (s.contains owner ∨ ∃ root o, m.root? name = some root ∧ root.ownership = some o
        ∧ o.owner = owner) := by
  rw [contains_of_finish h] at hname
  obtain ⟨t, ht⟩ := Option.isSome_iff_exists.mp hname
  obtain ⟨root, hroot, hsroot⟩ := exists_root_of_finish h ht
  have hembeds : m.embeds root := by
    rwa [isDocumentRoot_of_finish hsroot, Bool.not_eq_true', Bool.not_eq_false] at hembedded
  -- validation asks of every embedded root that its ownership is recorded
  have hrecorded := (Catalog.checkOwnership_eq_ok
    ((finish_valid h).ownership _ (Catalog.mem_types_of_root? hsroot))).1
  rw [finished_isOwned] at hrecorded
  obtain ⟨o, ho⟩ := hrecorded hembeds
  have hmoves : s.MovesTo name o.owner :=
    ⟨hembedded, by rw [Schema.ownerOf?, hsroot, Option.bind_some, ho, Option.map_some]⟩
  refine ⟨o.owner, hmoves, ?_⟩
  -- the conventions recorded it, or else it is still the author's
  rcases ownership_of_finished hdeclares ho with ⟨_, _, _, _, hcontains⟩ | ⟨_, hwritten⟩
  · rw [contains_of_finish h]
    exact .inl hcontains
  · exact .inr ⟨root, o, hroot, hwritten, rfl⟩

end Model

/-- **Owners lead to a document root unless they turn in a circle.** Every embedded type of a
finished schema has an owner, which is a type of the schema unless the author of the model wrote
down the ownership. From any type, moving to the owner over and over arrives at a type with
documents of its own if and only if all that the moves pass are types of the schema and none of
them is passed twice. -/
theorem owners_arrive_iff {m : Model} {naming : CollectionNaming} {s : Schema}
    (hdeclares : m.DeclaresMembers) (h : m.finish (Convention.defaults naming) = .ok s) :
    (∀ name, s.contains name → ¬ s.isDocumentRoot name →
      ∃ owner, s.MovesTo name owner
        ∧ (s.contains owner ∨ ∃ root o, m.root? name = some root ∧ root.ownership = some o
          ∧ o.owner = owner))
    ∧ ∀ name, s.contains name →
      ((∃ root, Relation.ReflTransGen s.MovesTo name root ∧ s.isDocumentRoot root)
        ↔ ∀ owner, Relation.ReflTransGen s.MovesTo name owner →
          s.contains owner ∧ ¬ Relation.TransGen s.MovesTo owner owner) := by
  refine ⟨fun name => Model.exists_owner hdeclares h, ?_⟩
  intro name hname
  constructor
  · -- on the way to a root each type has one owner, so whatever is passed arrives there too
    rintro ⟨root, hmoves, hroot⟩ owner howner
    have harrival := Schema.arrival_of_passed hmoves hroot howner
    refine ⟨?_, Schema.not_circle_of_arrival harrival hroot⟩
    rcases Relation.ReflTransGen.cases_head harrival with rfl | ⟨_, hmove, _⟩
    · exact Schema.contains_of_isDocumentRoot hroot
    · exact hmove.contains
  · -- a way that never arrives would pass infinitely many types without passing one twice
    intro hpassed
    refine Schema.exists_arrival ?_ hpassed
    intro owner howner hembedded
    obtain ⟨next, hmove, _⟩ := Model.exists_owner hdeclares h howner hembedded
    exact ⟨next, hmove⟩

/-! ## Books, and nodes -/

/-- Books have chapters, chapters have notes, and some notes are footnotes. -/
def bookModel : Model where
  types := [
    { name := "Book", navigations := [⟨"Chapters", "Book", "Chapter", true, true⟩] },
    { name := "Chapter", navigations := [⟨"Notes", "Chapter", "Note", true, true⟩] },
    { name := "Footnote", base := some "Note" },
    { name := "Note" }]

/-- The schema of books. -/
def books : Schema where
  types := [
    { name := "Book", isComplex := true, collection := some "Book"
      discriminatorValue := some "Book"
      navigations := [⟨"Chapters", "Book", "Chapter", true, true⟩] },
    { name := "Chapter", isOwned := true, isComplex := true, discriminatorValue := some "Chapter"
      ownership := some ⟨"Book", "Chapters", true⟩
      navigations := [⟨"Notes", "Chapter", "Note", true, true⟩] },
    { name := "Footnote", base := some "Note", discriminatorValue := some "Footnote" },
    { name := "Note", isOwned := true, isComplex := true, discriminatorValue := some "Note"
      ownership := some ⟨"Chapter", "Notes", true⟩, below := ["Footnote"] }]
  discriminatorElement := "_t"

/-- Footnotes belong to chapters like all notes, and chapters to books. So the owners of a footnote
are types of the schema, and none of them is passed twice. -/
theorem owners_arrive_iff_footnotes :
    bookModel.DeclaresMembers ∧ bookModel.finish (Convention.defaults .typeName) = .ok books
      ∧ books.contains "Footnote"
      ∧ ∀ owner, Relation.ReflTransGen books.MovesTo "Footnote" owner →
        books.contains owner ∧ ¬ Relation.TransGen books.MovesTo owner owner := by
  have hdeclares : bookModel.DeclaresMembers := by decide
  have h : bookModel.finish (Convention.defaults .typeName) = .ok books := rfl
  have hfootnote : books.MovesTo "Footnote" "Chapter" := by decide
  have hchapter : books.MovesTo "Chapter" "Book" := by decide
  refine ⟨hdeclares, h, rfl, ((owners_arrive_iff hdeclares h).2 "Footnote" rfl).mp ?_⟩
  exact ⟨"Book", .head hfootnote (.single hchapter), rfl⟩

/-- Nodes have a next node, which is embedded in them. -/
def nodeModel : Model where
  types := [{ name := "Node", navigations := [⟨"Next", "Node", "Node", false, true⟩] }]

/-- The schema of nodes. -/
def nodes : Schema where
  types := [
    { name := "Node", isOwned := true, isComplex := true, discriminatorValue := some "Node"
      ownership := some ⟨"Node", "Next", false⟩
      navigations := [⟨"Next", "Node", "Node", false, true⟩] }]
  discriminatorElement := "_t"

/-- No owner of a node has documents of its own. -/
theorem nodes_never_arrive :
    nodeModel.finish (Convention.defaults .typeName) = .ok nodes
      ∧ nodes.contains "Node" ∧ ¬ nodes.isDocumentRoot "Node"
      ∧ ¬ ∃ root, Relation.ReflTransGen nodes.MovesTo "Node" root ∧ nodes.isDocumentRoot root := by
  have hcircle : nodes.MovesTo "Node" "Node" := by decide
  refine ⟨rfl, rfl, by decide, ?_⟩
  rintro ⟨root, hmoves, hroot⟩
  exact Schema.not_circle_of_arrival hmoves hroot (.single hcircle)

end Odm
