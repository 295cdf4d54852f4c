import Odm.Proofs.Schema.Inheritance

/-!
# What the usual conventions make of a type

The usual conventions begin with ownership, and ownership is the only one that looks at more than
one type. It records each owning navigation at its target, and fails where two of them differ in
what they record. So of the owning navigations to a type the first one says what is recorded, and
all of them agree. Every later convention completes the types one by one. Together they make each
type of the schema from the type of that name in the model, and all walks of the schema are those
of the model over completed types.
-/

namespace Odm

/-! ## Walks over changed types -/

namespace Catalog

section Walks

variable {c : Catalog} {f : EntityType → EntityType} (hf : ∀ t : EntityType, (f t).bone = t.bone)

include hf

theorem find?_map_of_bone (name : String) : (c.mapTypes f).find? name = (c.find? name).map f :=
  find?_mapTypes (fun t => congrArg Prod.fst (hf t)) name

theorem climb_mapTypes (steps : Nat) : ∀ name,
    (c.mapTypes f).climb steps name = (c.climb steps name).map f := by
  induction steps with
  | zero => exact fun _ => rfl
  | succ steps ih =>
    intro name
    rw [climb, climb, find?_map_of_bone hf]
    -- `f` keeps the base, so both climbs go on to the same type
    cases c.find? name with
    | none => rfl
    | some t =>
      have hbase : (f t).base = t.base := congrArg Prod.snd (hf t)
      dsimp only [Option.map_some]
      rw [hbase]
      cases t.base with
      | none => rfl
      | some base =>
        dsimp only
        rw [ih base, List.map_cons]

theorem chain_mapTypes (name : String) : (c.mapTypes f).chain name = (c.chain name).map f := by
  rw [chain, climb_mapTypes hf, chain, mapTypes, List.length_map]

theorem root?_mapTypes (name : String) : (c.mapTypes f).root? name = (c.root? name).map f := by
  rw [root?, chain_mapTypes hf, List.getLast?_map, root?]

end Walks

end Catalog

/-! ## Ownership -/

/-- The owning navigations of all types. -/
def Catalog.owning (c : Catalog) : List Navigation :=
  (c.types.flatMap (·.navigations)).filter (·.isOwnership)

/-- Whether documents embed entities of a type: its author says that it is owned, or an owning
navigation leads to it. -/
def Catalog.embeds (c : Catalog) (t : EntityType) : Bool :=
  t.isOwned || c.owning.any (·.target = t.name)

theorem Catalog.owning_link (c : Catalog) : c.link.owning = c.owning := by
  rw [owning, link, mapTypes, List.flatMap_map, owning]
  rfl

theorem Catalog.mem_owning {c : Catalog} {t : EntityType} {n : Navigation} (ht : t ∈ c.types)
    (hn : n ∈ t.navigations) (hown : n.isOwnership) : n ∈ c.owning :=
  List.mem_filter.mpr ⟨List.mem_flatMap.mpr ⟨t, ht, hn⟩, hown⟩

namespace Convention

variable {c c' : Catalog} {n : Navigation} {ns : List Navigation} {t : EntityType}

/-- A type as the first of the navigations that own it makes it. -/
def ownedBy (ns : List Navigation) (t : EntityType) : EntityType :=
  match ns.find? (·.target = t.name) with
  | none => t
  | some n => owned n t

theorem ownedBy_of_none (h : ns.find? (·.target = t.name) = none) : ownedBy ns t = t := by
  rw [ownedBy, h]

theorem ownedBy_of_some (h : ns.find? (·.target = t.name) = some n) :
    ownedBy ns t = owned n t := by
  rw [ownedBy, h]

/-- Being owned changes what is recorded of ownership and nothing else. -/
theorem ownedBy_eq (ns : List Navigation) (t : EntityType) :
    ∃ isOwned ownership,
      ownedBy ns t = { t with isOwned := isOwned, ownership := ownership } := by
  cases h : ns.find? (·.target = t.name) with
  | none => exact ⟨_, _, ownedBy_of_none h⟩
  | some n => exact ⟨_, _, ownedBy_of_some h⟩

theorem isOwned_ownedBy (ns : List Navigation) (t : EntityType) :
    (ownedBy ns t).isOwned = (t.isOwned || ns.any (·.target = t.name)) := by
  rw [← List.isSome_find?]
  cases h : ns.find? (·.target = t.name) with
  | none => rw [ownedBy_of_none h, Option.isSome_none, Bool.or_false]
  | some n =>
    rw [ownedBy_of_some h, Option.isSome_some, Bool.or_true]
    rfl

theorem name_ownedBy (ns : List Navigation) (t : EntityType) : (ownedBy ns t).name = t.name := by
  obtain ⟨_, _, heq⟩ := ownedBy_eq ns t
  rw [heq]

/-- One more navigation is recorded at a type that no earlier one owns, and changes nothing
elsewhere. -/
theorem recordOwnership_ownedBy (h : recordOwnership (c.mapTypes (ownedBy ns)) n = .ok c') :
    c' = c.mapTypes (ownedBy (ns ++ [n])) := by
  rw [recordOwnership_eq_ok h, Catalog.modify, Catalog.mapTypes, Catalog.mapTypes,
    Catalog.mapTypes, List.map_map]
  congr 1
  refine List.map_congr_left fun t ht => ?_
  rw [Function.comp_apply, name_ownedBy]
  by_cases htarget : t.name = n.target
  · rw [if_pos htarget]
    cases hfirst : ns.find? (·.target = t.name) with
    | none =>
      have hall : (ns ++ [n]).find? (·.target = t.name) = some n := by
        rw [List.find?_append, hfirst, Option.none_or, List.find?_singleton]
        simp [htarget]
      rw [ownedBy_of_none hfirst, ownedBy_of_some hall]
    | some k =>
      have hall : (ns ++ [n]).find? (·.target = t.name) = some k := by
        rw [List.find?_append, hfirst, Option.some_or]
      -- the type is owned already, by a navigation that records the same
      have hsome : (c.find? n.target).isSome :=
        List.find?_isSome.mpr ⟨t, ht, decide_eq_true htarget⟩
      obtain ⟨u, hu⟩ := Option.isSome_iff_exists.mp hsome
      have hufirst : ns.find? (·.target = u.name) = some k := by
        rw [Catalog.find?_name hu, ← htarget, hfirst]
      have hfound : (c.mapTypes (ownedBy ns)).find? n.target = some (ownedBy ns u) := by
        rw [Catalog.find?_mapTypes (name_ownedBy ns), hu, Option.map_some]
      have hsame : ownershipOf k = ownershipOf n :=
        ownership_of_recordOwnership h hfound (by rw [ownedBy_of_some hufirst]; rfl)
      rw [ownedBy_of_some hfirst, ownedBy_of_some hall]
      simp only [owned, hsame]
  · have hnext : ([n] : List Navigation).find? (·.target = t.name) = none := by
      rw [List.find?_singleton]
      simp [Ne.symm htarget]
    rw [if_neg htarget, ownedBy, ownedBy, List.find?_append, hnext, Option.or_none]

/-- **Ownership makes each type owned by the first navigation to it.** -/
theorem recorded_eq (h : ns.foldlM recordOwnership c = .ok c') :
    c' = c.mapTypes (ownedBy ns) := by
  have hstart : c = c.mapTypes (ownedBy []) := congrArg Catalog.mk (List.map_id _).symm
  refine Except.foldlM_prefix (P := fun earlier d => d = c.mapTypes (ownedBy earlier)) ?_ hstart h
  intro earlier d n d' hd hn
  rw [hd] at hn
  exact recordOwnership_ownedBy hn

/-! ## The other conventions -/

/-- What the usual conventions make of a type whose ownership is recorded. -/
def completed (naming : CollectionNaming) (t : EntityType) : EntityType :=
  generateKey (nameDiscriminator (nameCollection naming
    (nameElements defaultKeyElement false (embed (discoverKey t)))))

theorem completed_settled (naming : CollectionNaming) (t : EntityType) :
    (completed naming t).settled = t.settled := by
  rw [completed, (generateKey_completes _).settled]
  have hdiscriminator : ∀ u : EntityType, (nameDiscriminator u).settled = u.settled := fun _ => rfl
  rw [hdiscriminator, (nameCollection_completes _ _).settled,
    (nameElements_completes _ _ _).settled, (embed_completes _).settled,
    (discoverKey_completes _).settled]

/-- What the usual conventions make of a type that some navigations own. -/
def filled (naming : CollectionNaming) (ns : List Navigation) (t : EntityType) : EntityType :=
  completed naming (ownedBy ns t)

section Filled

variable (naming : CollectionNaming) (ns : List Navigation) (t : EntityType)

theorem filled_settled : (filled naming ns t).settled = (ownedBy ns t).settled :=
  completed_settled _ _

/-- Ownership apart, a filled type is settled as the type was. -/
theorem filled_settled_eq :
    ∃ isOwned ownership, (filled naming ns t).settled
      = { t.settled with isOwned := isOwned, ownership := ownership } := by
  obtain ⟨isOwned, ownership, howned⟩ := ownedBy_eq ns t
  refine ⟨isOwned, ownership, ?_⟩
  rw [filled_settled, howned]
  rfl

theorem filled_line : (filled naming ns t).line = t.line := by
  obtain ⟨_, _, h⟩ := filled_settled_eq naming ns t
  have hline := congrArg EntityType.line h
  exact hline

theorem filled_name : (filled naming ns t).name = t.name :=
  congrArg Prod.fst (filled_line naming ns t)

theorem filled_navigations : (filled naming ns t).navigations = t.navigations := by
  obtain ⟨_, _, h⟩ := filled_settled_eq naming ns t
  have hnavigations := congrArg EntityType.navigations h
  exact hnavigations

theorem filled_containingName : (filled naming ns t).containingName = t.containingName := by
  obtain ⟨_, _, h⟩ := filled_settled_eq naming ns t
  have hname := congrArg EntityType.containingName h
  exact hname

theorem filled_isOwned :
    (filled naming ns t).isOwned = (t.isOwned || ns.any (·.target = t.name)) := by
  have howned := congrArg EntityType.isOwned (filled_settled naming ns t)
  exact howned.trans (isOwned_ownedBy ns t)

theorem filled_ownership : (filled naming ns t).ownership = (ownedBy ns t).ownership := by
  have hownership := congrArg EntityType.ownership (filled_settled naming ns t)
  exact hownership

end Filled

/-- **The usual conventions make the types one by one**, once ownership is recorded. -/
theorem applyAll_defaults {naming : CollectionNaming}
    (h : applyAll (defaults naming) c = .ok c') :
    (c.owning.foldlM recordOwnership c = .ok (c.mapTypes (ownedBy c.owning)))
      ∧ (∀ n ∈ c.types.flatMap (·.navigations), c.contains n.target)
      ∧ c' = c.mapTypes (filled naming c.owning) := by
  -- ownership goes first; the other conventions change every type on its own
  rw [applyAll, defaults, List.foldlM_cons] at h
  obtain ⟨c₁, hownership, h⟩ := Except.bind_eq_ok_iff.mp h
  obtain ⟨_, hchecked, hrecorded⟩ := Except.bind_eq_ok_iff.mp hownership
  have hc₁ : c₁ = c.mapTypes (ownedBy c.owning) := recorded_eq hrecorded
  subst hc₁
  refine ⟨hrecorded, ?_, ?_⟩
  · intro n hn
    have htarget := Except.forM_eq_ok_iff.mp hchecked n hn
    unfold checkTarget at htarget
    split at htarget
    · assumption
    · cases htarget
  · cases h
    simp only [Catalog.mapTypes, List.map_map]
    rfl

/-- **Every owning navigation is the recorded ownership of its target.** -/
theorem ownership_filled {naming : CollectionNaming} (h : applyAll (defaults naming) c = .ok c')
    (ht : t ∈ c.types) (hn : n ∈ c.owning) (htarget : t.name = n.target) :
    (filled naming c.owning t).ownership = some (ownershipOf n) := by
  rw [filled_ownership]
  refine records_of_recorded (applyAll_defaults h).1 n hn _ (List.mem_map_of_mem ht) ?_
  rw [name_ownedBy, htarget]

end Convention

namespace Model

variable {m : Model} {naming : CollectionNaming} {s : Schema}

/-- What the usual conventions make of a type of a model, once it is linked. -/
def finished (m : Model) (naming : CollectionNaming) (t : EntityType) : EntityType :=
  Convention.filled naming m.owning (m.linked t)

theorem finished_name (m : Model) (naming : CollectionNaming) (t : EntityType) :
    (m.finished naming t).name = t.name := Convention.filled_name naming _ (m.linked t)

theorem finished_bone (m : Model) (naming : CollectionNaming) (t : EntityType) :
    (m.finished naming t).bone = t.bone := by
  have hline := Convention.filled_line naming m.owning (m.linked t)
  exact congrArg (fun line => (line.1, line.2.1)) hline

/-- A finished type knows the types below it. -/
theorem finished_below (m : Model) (naming : CollectionNaming) (t : EntityType) :
    (m.finished naming t).below = (m.descendants t.name).map (·.name) :=
  congrArg (·.2.2) (Convention.filled_line naming m.owning (m.linked t))

theorem finished_navigations (m : Model) (naming : CollectionNaming) (t : EntityType) :
    (m.finished naming t).navigations = t.navigations :=
  Convention.filled_navigations naming _ (m.linked t)

theorem finished_containingName (m : Model) (naming : CollectionNaming) (t : EntityType) :
    (m.finished naming t).containingName = t.containingName :=
  Convention.filled_containingName naming _ (m.linked t)

/-- **A finished type is owned if documents embed it**, as the model has it. -/
theorem finished_isOwned (m : Model) (naming : CollectionNaming) (t : EntityType) :
    (m.finished naming t).isOwned = m.embeds t := Convention.filled_isOwned naming _ (m.linked t)

theorem finished_ownership (m : Model) (naming : CollectionNaming) (t : EntityType) :
    (m.finished naming t).ownership = (Convention.ownedBy m.owning (m.linked t)).ownership :=
  Convention.filled_ownership naming _ (m.linked t)

/-- **The types of a schema are the finished types of its model.** -/
theorem finish_defaults (h : m.finish (Convention.defaults naming) = .ok s) :
    s.toCatalog = m.toCatalog.mapTypes (m.finished naming) := by
  rw [(Convention.applyAll_defaults (applyAll_of_finish h)).2.2, Catalog.owning_link, Catalog.link,
    Catalog.mapTypes, Catalog.mapTypes, Catalog.mapTypes, List.map_map]
  rfl

theorem find?_of_finish (h : m.finish (Convention.defaults naming) = .ok s) (name : String) :
    s.find? name = (m.find? name).map (m.finished naming) := by
  rw [finish_defaults h, Catalog.find?_map_of_bone (m.finished_bone naming)]

theorem contains_of_finish (h : m.finish (Convention.defaults naming) = .ok s) (name : String) :
    s.contains name = m.contains name := by
  rw [Catalog.contains, find?_of_finish h, Option.isSome_map, Catalog.contains]

theorem root?_of_finish (h : m.finish (Convention.defaults naming) = .ok s) (name : String) :
    s.root? name = (m.root? name).map (m.finished naming) := by
  rw [finish_defaults h, Catalog.root?_mapTypes (m.finished_bone naming)]

theorem finish_discriminatorElement {conventions : List Convention}
    (h : m.finish conventions = .ok s) : s.discriminatorElement = m.discriminatorElement :=
  (complete_eq_ok h).2.2.2

/-- Every navigation of a model that can be finished leads to one of its types. -/
theorem contains_target_of_finish (h : m.finish (Convention.defaults naming) = .ok s)
    {t : EntityType} (ht : t ∈ m.types) {n : Navigation} (hn : n ∈ t.navigations) :
    m.contains n.target := by
  have hknown := (Convention.applyAll_defaults (applyAll_of_finish h)).2.1 n
    (List.mem_flatMap.mpr ⟨m.linked t, List.mem_map_of_mem ht, hn⟩)
  rwa [Catalog.contains, Catalog.find?_link, Option.isSome_map] at hknown

/-- The target of an owning navigation has recorded it. -/
theorem ownership_of_finish (h : m.finish (Convention.defaults naming) = .ok s) {t : EntityType}
    (ht : t ∈ m.types) {n : Navigation} (hn : n ∈ m.owning) (htarget : t.name = n.target) :
    (m.finished naming t).ownership = some (Convention.ownershipOf n) := by
  have hown : n ∈ m.link.owning := m.owning_link.symm ▸ hn
  have hrecorded := Convention.ownership_filled (t := m.linked t) (applyAll_of_finish h)
    (List.mem_map_of_mem ht) hown htarget
  rwa [Catalog.owning_link] at hrecorded

end Model

end Odm
