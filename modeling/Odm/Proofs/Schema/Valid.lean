import Mathlib.Data.List.Nodup
import Odm.Proofs.Schema.Hierarchy

/-!
# What validation promises

A schema has passed every check of validation. The checks are made one after the other and each
one goes through the types in order; what is left of them afterwards are facts about single types
and their members, and that the collections of types differ. So types that are stored in the same
collection have the same root.
-/

namespace Odm

namespace Catalog

variable {c : Catalog}

/-- The checks that a valid catalog has passed. -/
structure Valid (c : Catalog) : Prop where
  keys : ∀ t ∈ c.types, checkKey t = .ok ()
  mappings : ∀ t ∈ c.types, checkMappings t = .ok ()
  ownership : ∀ t ∈ c.types, c.checkOwnership t = .ok ()
  collections : checkCollections [] c.collectionTypes = .ok ()
  discriminators : c.checkDiscriminators [] c.discriminatedTypes = .ok ()

theorem valid_of_validate (h : c.validate = .ok ()) : c.Valid := by
  obtain ⟨_, hkeys, h⟩ := Except.bind_eq_ok_iff.mp h
  obtain ⟨_, hmappings, h⟩ := Except.bind_eq_ok_iff.mp h
  obtain ⟨_, hownership, h⟩ := Except.bind_eq_ok_iff.mp h
  obtain ⟨_, hcollections, hdiscriminators⟩ := Except.bind_eq_ok_iff.mp h
  exact {
    keys := Except.forM_eq_ok_iff.mp hkeys
    mappings := Except.forM_eq_ok_iff.mp hmappings
    ownership := Except.forM_eq_ok_iff.mp hownership
    collections := hcollections
    discriminators := hdiscriminators }

/-- **Documents can hold the values of all properties.** -/
theorem Valid.isMappable (h : c.Valid) {t : EntityType} {p : Property} (ht : t ∈ c.types)
    (hp : p ∈ t.properties) : p.type.isMappable := by
  have hcheck := Except.forM_eq_ok_iff.mp (h.mappings t ht) p hp
  split at hcheck
  · assumption
  · cases hcheck

theorem mem_types_of_mem_chain {name : String} {t : EntityType} (h : t ∈ c.chain name) :
    t ∈ c.types := List.mem_of_find?_eq_some (find?_of_mem_climb h)

/-- A property that is found by its name is declared on a type of the chain. -/
theorem findProperty?_eq_some {typeName name : String} {p : Property}
    (h : c.findProperty? typeName name = some p) :
    ∃ t ∈ c.chain typeName, p ∈ t.properties ∧ p.name = name := by
  obtain ⟨t, ht, hp⟩ := List.exists_of_findSome?_eq_some h
  exact ⟨t, ht, List.mem_of_find?_eq_some hp, by simpa using List.find?_some hp⟩

/-- A navigation that is found by its name is declared on a type of the chain. -/
theorem findNavigation?_eq_some {typeName name : String} {n : Navigation}
    (h : c.findNavigation? typeName name = some n) :
    ∃ t ∈ c.chain typeName, n ∈ t.navigations ∧ n.name = name := by
  obtain ⟨t, ht, hn⟩ := List.exists_of_findSome?_eq_some h
  exact ⟨t, ht, List.mem_of_find?_eq_some hn, by simpa using List.find?_some hn⟩

/-! ## Collections -/

/-- A check that goes through types with the marks it has seen finds marks that differ. -/
theorem nodup_map_cons {β : Type} {mark : EntityType → β} {t : EntityType}
    {rest : List EntityType} {seen : List β} (ht : mark t ∉ seen)
    (hrest : (rest.map mark).Nodup ∧ ∀ u ∈ rest, mark u ∉ mark t :: seen) :
    ((t :: rest).map mark).Nodup ∧ ∀ u ∈ t :: rest, mark u ∉ seen := by
  obtain ⟨hnodup, hunseen⟩ := hrest
  refine ⟨?_, ?_⟩
  · rw [List.map_cons, List.nodup_cons]
    refine ⟨?_, hnodup⟩
    intro hmem
    obtain ⟨u, hu, heq⟩ := List.mem_map.mp hmem
    exact hunseen u hu (heq ▸ List.mem_cons_self)
  · intro u hu
    rcases List.mem_cons.mp hu with rfl | hu
    · exact ht
    · exact fun hmem => hunseen u hu (List.mem_cons_of_mem _ hmem)

theorem checkCollections_nodup {types : List EntityType} :
    ∀ {seen : List String}, checkCollections seen types = .ok () →
      (types.map (·.collectionName)).Nodup ∧ ∀ t ∈ types, t.collectionName ∉ seen := by
  induction types with
  | nil => exact fun _ => ⟨List.nodup_nil, fun _ ht => absurd ht List.not_mem_nil⟩
  | cons t rest ih =>
    intro seen h
    rw [checkCollections] at h
    split at h
    · cases h
    · rename_i hseen
      exact nodup_map_cons hseen (ih h)

/-- Roots that are stored in the same collection are the same. -/
theorem Valid.eq_of_collectionName (h : c.Valid) (hc : c.Rooted) {a b : String}
    {root root' : EntityType} (hroot : c.root? a = some root) (hroot' : c.root? b = some root')
    (howned : root.isOwned = false) (howned' : root'.isOwned = false)
    (hname : root.collectionName = root'.collectionName) : root = root' := by
  have hmem : ∀ {name root}, c.root? name = some root → root.isOwned = false →
      root ∈ c.collectionTypes := by
    intro name root hroot howned
    rw [collectionTypes, List.mem_filter]
    refine ⟨mem_types_of_root? hroot, ?_⟩
    simp [hc name root hroot, howned]
  exact List.inj_on_of_nodup_map (checkCollections_nodup h.collections).1 (hmem hroot howned)
    (hmem hroot' howned') hname

end Catalog

namespace Schema

variable {s : Schema} {name : String} {root : EntityType}

/-- Whether a type is stored in documents of its own is decided at its root. -/
theorem isDocumentRoot_of_root? (h : s.root? name = some root) :
    s.isDocumentRoot name = !root.isOwned := by rw [isDocumentRoot, h]

/-- The collection of a type is that of its root, if the root has one. -/
theorem collectionName_of_root? (h : s.root? name = some root) :
    s.collectionName name
      = if root.isOwned then .error (.notACollectionType name) else .ok root.collectionName := by
  rw [collectionName, collectionRoot, h]
  dsimp only
  split <;> rfl

theorem collectionRoot_of_collectionName {collection : String}
    (h : s.collectionName name = .ok collection) :
    ∃ root, s.root? name = some root ∧ root.isOwned = false
      ∧ root.collectionName = collection := by
  cases hroot : s.root? name with
  | none =>
    rw [collectionName, collectionRoot, hroot] at h
    cases h
  | some root =>
    rw [collectionName_of_root? hroot] at h
    split at h
    · cases h
    · rename_i howned
      cases h
      exact ⟨root, rfl, by simpa using howned, rfl⟩

theorem exists_root_of_isDocumentRoot (h : s.isDocumentRoot name) :
    ∃ root, s.root? name = some root ∧ root.isOwned = false := by
  cases hroot : s.root? name with
  | none =>
    rw [isDocumentRoot, hroot] at h
    cases h
  | some root =>
    rw [isDocumentRoot_of_root? hroot, Bool.not_eq_true'] at h
    exact ⟨root, rfl, h⟩

/-- What has a root is a type of the schema. -/
theorem contains_of_root? (h : s.root? name = some root) : s.contains name := by
  rw [Catalog.contains]
  cases hfound : s.find? name with
  | some t => rfl
  | none =>
    rw [Catalog.root?, Catalog.chain_of_none hfound] at h
    cases h

theorem contains_of_isDocumentRoot (h : s.isDocumentRoot name) : s.contains name := by
  obtain ⟨_, hroot, _⟩ := exists_root_of_isDocumentRoot h
  exact contains_of_root? hroot

/-- **Just the types that are stored in documents of their own have a collection.** -/
theorem exists_collectionName_iff :
    (∃ collection, s.collectionName name = .ok collection) ↔ s.isDocumentRoot name := by
  constructor
  · rintro ⟨collection, hcollection⟩
    obtain ⟨root, hroot, howned, _⟩ := collectionRoot_of_collectionName hcollection
    rw [isDocumentRoot_of_root? hroot, howned]
    rfl
  · intro hstored
    obtain ⟨root, hroot, howned⟩ := exists_root_of_isDocumentRoot hstored
    rw [collectionName_of_root? hroot, howned]
    exact ⟨_, rfl⟩

/-- **Types that share a collection share a hierarchy.** -/
theorem root?_of_collectionName (hv : s.Valid) (hc : s.Rooted) {a b collection : String}
    (ha : s.collectionName a = .ok collection) (hb : s.collectionName b = .ok collection) :
    s.root? a = s.root? b := by
  obtain ⟨ra, hra, howna, hnamea⟩ := collectionRoot_of_collectionName ha
  obtain ⟨rb, hrb, hownb, hnameb⟩ := collectionRoot_of_collectionName hb
  rw [hra, hrb, hv.eq_of_collectionName hc hra hrb howna hownb (hnamea.trans hnameb.symm)]

end Schema

namespace Model

variable {m : Model} {s : Schema}

theorem complete_valid {steps : List CatalogStep} (h : m.complete steps = .ok s) : s.Valid :=
  Catalog.valid_of_validate (complete_eq_ok h).2.2.1

theorem finish_valid {conventions : List Convention} (h : m.finish conventions = .ok s) :
    s.Valid := complete_valid h

end Model

end Odm
