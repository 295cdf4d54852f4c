import Odm.Proofs.Schema.Collections
import Odm.Proofs.Schema.Completion

/-!
# Which types are embedded

That a type is embedded is recorded at that type: its author says so, or an owning navigation leads
to it. Validation reads the record of a target and lets no other navigation lead to it. Whether the
entities of a type are stored in documents of their own is read elsewhere, at the root of its
hierarchy. The two agree about a navigation where the target and its root are both embedded or
neither is, so for every target without a base; between an embedded type and a root that is not,
or the other way round, they differ.
-/

namespace Odm

namespace Catalog

variable {c : Catalog} {t target : EntityType} {n : Navigation}

theorem checkOwnership_eq_ok (h : c.checkOwnership t = .ok ()) :
    (t.isOwned → ∃ o, t.ownership = some o)
      ∧ ∀ n ∈ t.navigations, c.checkNavigation t n = .ok () := by
  unfold checkOwnership at h
  split at h
  · cases h
  · rename_i hrecorded
    refine ⟨?_, Except.forM_eq_ok_iff.mp h⟩
    intro howned
    rw [howned, Bool.true_and, Option.isNone_iff_eq_none] at hrecorded
    exact Option.ne_none_iff_exists'.mp hrecorded

/-- In a valid catalog only owning navigations lead to owned types. -/
theorem Valid.isOwnership (h : c.Valid) (ht : t ∈ c.types) (hn : n ∈ t.navigations)
    (htarget : c.find? n.target = some target) (howned : target.isOwned) : n.isOwnership := by
  have hcheck := (checkOwnership_eq_ok (h.ownership t ht)).2 n hn
  unfold checkNavigation at hcheck
  split at hcheck
  · cases hcheck
  · rename_i hallowed
    simpa [htarget, howned] using hallowed

end Catalog

namespace Model

variable {m : Model} {naming : CollectionNaming} {s : Schema}

/-- A type of a schema has its root, finished, from the model. -/
theorem exists_root_of_finish (h : m.finish (Convention.defaults naming) = .ok s) {name : String}
    {t : EntityType} (ht : m.find? name = some t) :
    ∃ root, m.root? name = some root ∧ s.root? name = some (m.finished naming root) := by
  have hfound : s.find? name = some (m.finished naming t) := by
    rw [find?_of_finish h, ht, Option.map_some]
  obtain ⟨root', hroot'⟩ := (finish_eq_ok h).1.exists_root hfound
  have hmap := root?_of_finish h name
  rw [hroot'] at hmap
  obtain ⟨root, hroot, rfl⟩ := Option.map_eq_some_iff.mp hmap.symm
  exact ⟨root, hroot, hroot'⟩

/-- Whether a type is stored in documents of its own is decided at its root in the model. -/
theorem isDocumentRoot_of_finish {name : String} {root : EntityType}
    (hroot : s.root? name = some (m.finished naming root)) :
    s.isDocumentRoot name = !m.embeds root := by
  rw [Schema.isDocumentRoot_of_root? hroot, finished_isOwned]

/-- **A navigation owns its target just if the target is embedded.** -/
theorem isOwnership_iff_embeds (h : m.finish (Convention.defaults naming) = .ok s)
    {t target : EntityType} (ht : t ∈ m.types) {n : Navigation} (hn : n ∈ t.navigations)
    (htarget : m.find? n.target = some target) : n.isOwnership ↔ m.embeds target := by
  constructor
  · -- what is owned is recorded as owned, so the target is embedded
    intro hown
    have hleads : m.owning.any (·.target = target.name) :=
      List.any_eq_true.mpr ⟨n, Catalog.mem_owning ht hn hown,
        decide_eq_true (Catalog.find?_name htarget).symm⟩
    rw [Catalog.embeds, hleads, Bool.or_true]
  · intro hembeds
    -- validation refuses a navigation that leads to an embedded type and does not own it
    have hfinished : m.finished naming t ∈ s.types := by
      rw [finish_defaults h]
      exact List.mem_map_of_mem ht
    have hfound : s.find? n.target = some (m.finished naming target) := by
      rw [find?_of_finish h, htarget, Option.map_some]
    refine (finish_valid h).isOwnership hfinished ?_ hfound ?_
    · rw [finished_navigations]
      exact hn
    · rw [finished_isOwned]
      exact hembeds

end Model

/-! ## Owning and embedding -/

/-- **Where owning a target and embedding it are the same.** Every navigation of a finished schema
leads to a type of the model. It owns that type just if the type is embedded, while the entities of
the type have no documents of their own just if the root of its hierarchy is embedded. So a
navigation owns a target without documents of its own, and no other, if and only if the target and
its root are both embedded or neither is. -/
theorem owning_meets_storing_iff {m : Model} {naming : CollectionNaming} {s : Schema}
    (h : m.finish (Convention.defaults naming) = .ok s) {t : EntityType} (ht : t ∈ s.types)
    {n : Navigation} (hn : n ∈ t.navigations) :
    ∃ target root, m.find? n.target = some target ∧ m.root? n.target = some root
      ∧ (n.isOwnership ↔ m.embeds target)
      ∧ (¬ s.isDocumentRoot n.target ↔ m.embeds root)
      ∧ ((n.isOwnership ↔ ¬ s.isDocumentRoot n.target) ↔ m.embeds target = m.embeds root)
      ∧ (target.base = none → (n.isOwnership ↔ ¬ s.isDocumentRoot n.target)) := by
  rw [Model.finish_defaults h] at ht
  obtain ⟨t₀, ht₀, rfl⟩ := List.mem_map.mp ht
  rw [Model.finished_navigations] at hn
  obtain ⟨target, htarget⟩ :=
    Option.isSome_iff_exists.mp (Model.contains_target_of_finish h ht₀ hn)
  obtain ⟨root, hroot, hsroot⟩ := Model.exists_root_of_finish h htarget
  have howns := Model.isOwnership_iff_embeds h ht₀ hn htarget
  have hstores : ¬ s.isDocumentRoot n.target ↔ m.embeds root := by
    rw [Model.isDocumentRoot_of_finish hsroot, Bool.not_eq_true', Bool.not_eq_false]
  have hagree : (n.isOwnership ↔ ¬ s.isDocumentRoot n.target)
      ↔ m.embeds target = m.embeds root := by
    rw [howns, hstores]
    exact Bool.eq_iff_iff.symm
  refine ⟨target, root, htarget, hroot, howns, hstores, hagree, ?_⟩
  -- a type without a base is its own root
  intro hbase
  rw [Catalog.root?, Catalog.chain_of_root htarget hbase] at hroot
  cases hroot
  exact hagree.mpr rfl

/-! ## A farm -/

/-- Farms own their barns and their horses, which are animals. Riders have a favorite stable, which
is a barn. -/
def farmModel : Model where
  types := [
    { name := "Animal" },
    { name := "Barn" },
    { name := "Farm"
      navigations := [⟨"Barns", "Farm", "Barn", true, true⟩,
        ⟨"Horses", "Farm", "Horse", true, true⟩] },
    { name := "Horse", base := some "Animal" },
    { name := "Rider", navigations := [⟨"Favorite", "Rider", "Stable", false, false⟩] },
    { name := "Stable", base := some "Barn" }]

/-- A type of farms that is a root with documents of its own. -/
def farmRoot (name : String) (navigations : List Navigation) : EntityType where
  name := name
  isComplex := true
  collection := some name
  discriminatorValue := some name
  navigations := navigations

/-- The finished type of farms. -/
def farm : EntityType :=
  farmRoot "Farm" [⟨"Barns", "Farm", "Barn", true, true⟩, ⟨"Horses", "Farm", "Horse", true, true⟩]

/-- The finished type of riders. -/
def rider : EntityType := farmRoot "Rider" [⟨"Favorite", "Rider", "Stable", false, false⟩]

/-- The schema of farms. -/
def farms : Schema where
  types := [
    { farmRoot "Animal" [] with below := ["Horse"] },
    { name := "Barn", isOwned := true, isComplex := true, discriminatorValue := some "Barn"
      ownership := some ⟨"Farm", "Barns", true⟩, below := ["Stable"] },
    farm,
    { name := "Horse", base := some "Animal", isOwned := true, isComplex := true
      discriminatorValue := some "Horse", ownership := some ⟨"Farm", "Horses", true⟩ },
    rider,
    { name := "Stable", base := some "Barn", discriminatorValue := some "Stable" }]
  discriminatorElement := "_t"

theorem finish_farmModel : farmModel.finish (Convention.defaults .typeName) = .ok farms := rfl

/-- Barns are embedded in their farms. -/
theorem owning_meets_storing_iff_barns :
    farmModel.finish (Convention.defaults .typeName) = .ok farms
      ∧ farm ∈ farms.types ∧ ⟨"Barns", "Farm", "Barn", true, true⟩ ∈ farm.navigations
      ∧ ¬ farms.isDocumentRoot "Barn" := by
  have hfarm : farm ∈ farms.types := by decide
  have hbarns : ⟨"Barns", "Farm", "Barn", true, true⟩ ∈ farm.navigations := by decide
  obtain ⟨target, _, htarget, _, _, _, _, hbase⟩ :=
    owning_meets_storing_iff finish_farmModel hfarm hbarns
  have hbarn : farmModel.find? "Barn" = some target := htarget
  cases hbarn
  exact ⟨finish_farmModel, hfarm, hbarns, (hbase rfl).mp rfl⟩

/-- Farms own their horses, which have documents of their own all the same. And the favorites of
riders have no documents of their own, though no rider owns them. -/
theorem horses_stored_and_stables_referenced :
    farmModel.finish (Convention.defaults .typeName) = .ok farms
      ∧ (∃ t ∈ farms.types, ∃ n ∈ t.navigations,
        n.isOwnership ∧ farms.isDocumentRoot n.target)
      ∧ ∃ t ∈ farms.types, ∃ n ∈ t.navigations,
        ¬ farms.isDocumentRoot n.target ∧ ¬ n.isOwnership := by
  refine ⟨finish_farmModel, ?_, ?_⟩
  · exact ⟨farm, by decide, ⟨"Horses", "Farm", "Horse", true, true⟩, by decide, rfl, by decide⟩
  · exact ⟨rider, by decide, ⟨"Favorite", "Rider", "Stable", false, false⟩, by decide,
      by decide, by decide⟩

end Odm
