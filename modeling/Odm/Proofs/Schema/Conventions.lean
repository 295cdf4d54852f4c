import Odm.Proofs.Success
import Odm.Schema.Model

/-!
# What conventions keep

Conventions fill in what a model leaves open. The *frame* of a type is what its author alone
decides: its name and base, its navigations, the field of its embedded documents. No convention
touches it. Ownership changes nothing but ownership, and every other convention goes through the
types one by one and keeps ownership as it is, which makes the type's *settled* part. The types
below it, which are linked before any convention runs, are settled too.

The usual conventions begin with ownership. So in a schema that they made, every owning navigation
has a target, and the target knows the navigation under whose field it is embedded.
-/

namespace Odm

namespace EntityType

/-- A type without what conventions other than ownership fill in. -/
def settled (t : EntityType) : EntityType :=
  { t with
    isComplex := false, collection := none, discriminatorValue := none, key := none
    properties := [] }

/-- A type without what is filled in when a model is finished. -/
def frame (t : EntityType) : EntityType :=
  { t.settled with isOwned := false, ownership := none, below := [] }

/-- The members of a type are declared on it. -/
structure DeclaresMembers (t : EntityType) : Prop where
  properties : ∀ p ∈ t.properties, p.declaringType = t.name
  navigations : ∀ n ∈ t.navigations, n.declaringType = t.name

instance (t : EntityType) : Decidable t.DeclaresMembers :=
  decidable_of_iff ((∀ p ∈ t.properties, p.declaringType = t.name)
    ∧ ∀ n ∈ t.navigations, n.declaringType = t.name)
    ⟨fun h => ⟨h.1, h.2⟩, fun h => ⟨h.properties, h.navigations⟩⟩

/-- Adding members declares them on the type. -/
theorem declaresMembers_addProperty {t : EntityType} (h : t.DeclaresMembers) (p : Property) :
    (t.addProperty p).DeclaresMembers where
  properties q hq := by
    rcases List.mem_append.mp hq with hq | hq
    · exact h.properties q hq
    · cases List.mem_singleton.mp hq
      rfl
  navigations := h.navigations

theorem declaresMembers_addNavigation {t : EntityType} (h : t.DeclaresMembers) (n : Navigation) :
    (t.addNavigation n).DeclaresMembers where
  properties := h.properties
  navigations k hk := by
    rcases List.mem_append.mp hk with hk | hk
    · exact h.navigations k hk
    · cases List.mem_singleton.mp hk
      rfl

/-- A type keeps what it is apart from its open settings, and its properties stay declared where
they were. -/
structure Completes (t t' : EntityType) : Prop where
  settled : t'.settled = t.settled
  properties : ∀ p' ∈ t'.properties, ∃ p ∈ t.properties, p'.declaringType = p.declaringType

theorem Completes.of_properties {t t' : EntityType} (hsettled : t'.settled = t.settled)
    (h : t'.properties = t.properties) : t.Completes t' :=
  ⟨hsettled, fun p hp => ⟨p, h ▸ hp, rfl⟩⟩

theorem Completes.name {t t' : EntityType} (h : t.Completes t') : t'.name = t.name := by
  have hname := congrArg EntityType.name h.settled
  exact hname

theorem Completes.navigations {t t' : EntityType} (h : t.Completes t') :
    t'.navigations = t.navigations := by
  have hnavigations := congrArg EntityType.navigations h.settled
  exact hnavigations

theorem Completes.ownership {t t' : EntityType} (h : t.Completes t') :
    t'.ownership = t.ownership := by
  have hownership := congrArg EntityType.ownership h.settled
  exact hownership

theorem Completes.declaresMembers {t t' : EntityType} (h : t.Completes t')
    (ht : t.DeclaresMembers) : t'.DeclaresMembers where
  properties p' hp' := by
    obtain ⟨p, hp, heq⟩ := h.properties p' hp'
    rw [heq, ht.properties p hp, h.name]
  navigations n hn := by
    rw [ht.navigations n (h.navigations ▸ hn), h.name]

end EntityType

namespace Convention

open EntityType

variable {c c' : Catalog}

/-! ## Conventions that go type by type -/

theorem discoverKey_completes (t : EntityType) : t.Completes (discoverKey t) := by
  refine .of_properties ?_ ?_ <;> unfold discoverKey <;> split <;> rfl

theorem embed_completes (t : EntityType) : t.Completes (embed t) := by
  unfold embed
  split
  · exact ⟨rfl, fun p hp => ⟨p, (List.mem_filter.mp hp).1, rfl⟩⟩
  · split <;> exact .of_properties rfl rfl

theorem nameElement_declaringType (key : Option String) (keyElement : String)
    (camelCase : Bool) (p : Property) :
    (nameElement key keyElement camelCase p).declaringType = p.declaringType := by
  unfold nameElement
  split
  · rfl
  · split
    · rfl
    · split <;> rfl

theorem nameElements_completes (keyElement : String) (camelCase : Bool) (t : EntityType) :
    t.Completes (nameElements keyElement camelCase t) := by
  refine ⟨rfl, ?_⟩
  intro p' hp'
  obtain ⟨p, hp, rfl⟩ := List.mem_map.mp hp'
  exact ⟨p, hp, nameElement_declaringType _ _ _ p⟩

theorem nameCollection_completes (naming : CollectionNaming) (t : EntityType) :
    t.Completes (nameCollection naming t) := by
  unfold nameCollection
  split <;> exact .of_properties rfl rfl

theorem generateProperty_declaringType (key : String) (p : Property) :
    (generateProperty key p).declaringType = p.declaringType := by
  unfold generateProperty
  split <;> rfl

theorem generateKey_completes (t : EntityType) : t.Completes (generateKey t) := by
  unfold generateKey
  split
  · exact .of_properties rfl rfl
  · split
    · exact .of_properties rfl rfl
    · refine ⟨rfl, ?_⟩
      intro p' hp'
      obtain ⟨p, hp, rfl⟩ := List.mem_map.mp hp'
      exact ⟨p, hp, generateProperty_declaringType _ p⟩

/-- **All conventions but ownership complete the types one by one.** -/
theorem apply_eq_mapTypes {convention : Convention} (hne : convention ≠ .ownership)
    (h : convention.apply c = .ok c') :
    ∃ f : EntityType → EntityType, c' = c.mapTypes f ∧ ∀ t : EntityType, t.Completes (f t) := by
  cases convention with
  | ownership => exact absurd rfl hne
  | keyDiscovery => cases h; exact ⟨_, rfl, discoverKey_completes⟩
  | ownedDocument => cases h; exact ⟨_, rfl, embed_completes⟩
  | elementName keyElement camelCase => cases h; exact ⟨_, rfl, nameElements_completes _ _⟩
  | collectionName naming => cases h; exact ⟨_, rfl, nameCollection_completes naming⟩
  | discriminator => cases h; exact ⟨_, rfl, fun t => .of_properties rfl rfl⟩
  | valueGeneration => cases h; exact ⟨_, rfl, generateKey_completes⟩

/-! ## Ownership -/

/-- A type that is the target of an owning navigation. -/
def owned (n : Navigation) (t : EntityType) : EntityType :=
  { t with isOwned := true, ownership := some (ownershipOf n) }

theorem recordOwnership_eq_ok {n : Navigation} (h : recordOwnership c n = .ok c') :
    c' = c.modify n.target (owned n) := by
  unfold recordOwnership at h
  split at h
  · cases h
    rfl
  · split at h
    · cases h
      rfl
    · cases h

/-- What is recorded already agrees with what the next navigation records. -/
theorem ownership_of_recordOwnership {n : Navigation} {t : EntityType} {o : Ownership}
    (h : recordOwnership c n = .ok c') (ht : c.find? n.target = some t)
    (ho : t.ownership = some o) : o = ownershipOf n := by
  rw [recordOwnership, ht, Option.bind_some, ho] at h
  dsimp only at h
  split at h
  · assumption
  · cases h

/-- Each of some navigations is recorded as the ownership of its target. -/
def Records (ns : List Navigation) (c : Catalog) : Prop :=
  ∀ n ∈ ns, ∀ t ∈ c.types, t.name = n.target → t.ownership = some (ownershipOf n)

theorem records_nil (c : Catalog) : Records [] c := nofun

/-- One more navigation is recorded, and those before it stay recorded. -/
theorem records_concat {ns : List Navigation} {n : Navigation} (h : Records ns c)
    (hn : recordOwnership c n = .ok c') : Records (ns ++ [n]) c' := by
  rw [recordOwnership_eq_ok hn]
  -- what a type records now is of the new navigation just if that leads to it
  intro k hk t' ht' hname
  obtain ⟨t, ht, rfl⟩ := List.mem_map.mp ht'
  by_cases htarget : t.name = n.target
  · rw [if_pos htarget] at hname ⊢
    rcases List.mem_append.mp hk with hk | hk
    · -- the two navigations have one target, so they record the same
      have hsome : (c.find? n.target).isSome :=
        List.find?_isSome.mpr ⟨t, ht, decide_eq_true htarget⟩
      obtain ⟨u, hu⟩ := Option.isSome_iff_exists.mp hsome
      have huname : u.name = n.target := by simpa using List.find?_some hu
      have huown : u.ownership = some (ownershipOf k) :=
        h k hk u (List.mem_of_find?_eq_some hu) (by rw [huname, ← htarget]; exact hname)
      rw [ownership_of_recordOwnership hn hu huown]
      rfl
    · cases List.mem_singleton.mp hk
      rfl
  · rw [if_neg htarget] at hname ⊢
    rcases List.mem_append.mp hk with hk | hk
    · exact h k hk t ht hname
    · cases List.mem_singleton.mp hk
      exact absurd hname htarget

/-- **All navigations that own a type record the same.** -/
theorem records_of_recorded {ns : List Navigation}
    (h : ns.foldlM recordOwnership c = .ok c') : Records ns c' :=
  Except.foldlM_prefix (fun _ _ _ _ hrecords hn => records_concat hrecords hn) (records_nil c) h

/-! ## All conventions -/

/-- Whatever ownership and the completion of types keep, conventions keep. -/
theorem applyAll_keeps {P : Catalog → Prop}
    (howned : ∀ c n, P c → P (c.modify n.target (owned n)))
    (hcompletes : ∀ c f, (∀ t : EntityType, t.Completes (f t)) → P c → P (c.mapTypes f))
    {conventions : List Convention} (h : applyAll conventions c = .ok c') (hc : P c) : P c' := by
  refine Except.foldlM_keeps ?_ h hc
  intro c convention c' _ hc h
  by_cases hconvention : convention = .ownership
  · subst hconvention
    obtain ⟨_, _, h⟩ := Except.bind_eq_ok_iff.mp h
    refine Except.foldlM_keeps ?_ h hc
    intro c n c' _ hc h
    rw [recordOwnership_eq_ok h]
    exact howned c n hc
  · obtain ⟨f, rfl, hf⟩ := apply_eq_mapTypes hconvention h
    exact hcompletes c f hf hc

end Convention

namespace Catalog

variable {c c' : Catalog}

/-- The frames of all types. -/
def frames (c : Catalog) : List EntityType := c.types.map EntityType.frame

theorem frames_mapTypes {f : EntityType → EntityType} (hf : ∀ t, (f t).frame = t.frame) :
    (c.mapTypes f).frames = c.frames := by
  rw [frames, frames, mapTypes, List.map_map]
  exact List.map_congr_left fun t _ => hf t

/-- **No convention touches the frame of a type.** -/
theorem frames_applyAll {conventions : List Convention}
    (h : Convention.applyAll conventions c = .ok c') : c'.frames = c.frames := by
  refine Convention.applyAll_keeps (P := fun d => d.frames = c.frames) ?_ ?_ h rfl
  · intro d n hd
    rw [← hd, modify, frames_mapTypes]
    intro t
    split <;> rfl
  · intro d f hf hd
    rw [← hd, frames_mapTypes]
    intro t
    rw [EntityType.frame, (hf t).settled, EntityType.frame]

/-- The members of all types are declared on their types. -/
def DeclaresMembers (c : Catalog) : Prop := ∀ t ∈ c.types, t.DeclaresMembers

instance (c : Catalog) : Decidable c.DeclaresMembers :=
  inferInstanceAs (Decidable (∀ t ∈ c.types, t.DeclaresMembers))

/-- Conventions leave members declared where they are. -/
theorem declaresMembers_applyAll {conventions : List Convention}
    (h : Convention.applyAll conventions c = .ok c') (hc : c.DeclaresMembers) :
    c'.DeclaresMembers := by
  refine Convention.applyAll_keeps ?_ ?_ h hc
  · intro d n hd t' ht'
    obtain ⟨t, ht, rfl⟩ := List.mem_map.mp ht'
    split
    · exact ⟨(hd t ht).properties, (hd t ht).navigations⟩
    · exact hd t ht
  · intro d f hf hd t' ht'
    obtain ⟨t, ht, rfl⟩ := List.mem_map.mp ht'
    exact (hf t).declaresMembers (hd t ht)

/-- Links are no members. -/
theorem declaresMembers_link (hc : c.DeclaresMembers) : c.link.DeclaresMembers := by
  intro t' ht'
  obtain ⟨t, ht, rfl⟩ := List.mem_map.mp ht'
  exact ⟨(hc t ht).properties, (hc t ht).navigations⟩

/-- The types of the catalog correspond to those of its frames. -/
theorem exists_of_frames (h : c'.frames = c.frames) {t' : EntityType} (ht' : t' ∈ c'.types) :
    ∃ t ∈ c.types, t.frame = t'.frame := by
  have hmem : t'.frame ∈ c.frames := h ▸ List.mem_map_of_mem ht'
  exact List.mem_map.mp hmem

theorem find?_frames (name : String) :
    (c.find? name).map EntityType.frame = c.frames.find? (·.name = name) := by
  rw [frames, List.find?_map]
  rfl

theorem find?_isSome_of_frames (h : c'.frames = c.frames) (name : String) :
    (c'.find? name).isSome = (c.find? name).isSome := by
  rw [← Option.isSome_map (f := EntityType.frame), find?_frames, h, ← find?_frames,
    Option.isSome_map]

theorem find?_mapTypes {f : EntityType → EntityType} (hf : ∀ t, (f t).name = t.name)
    (name : String) : (c.mapTypes f).find? name = (c.find? name).map f := by
  have hname : ((fun t : EntityType => decide (t.name = name)) ∘ f)
      = fun t => decide (t.name = name) := by
    funext t
    rw [Function.comp_apply, hf]
  rw [find?, mapTypes, List.find?_map, hname, find?]

/-! ## The usual conventions -/

/-- Owning navigations lead to types of the catalog. -/
def KnowsTargets (c : Catalog) : Prop :=
  ∀ t ∈ c.types, ∀ n ∈ t.navigations, n.isOwnership → c.contains n.target

instance (c : Catalog) : Decidable c.KnowsTargets :=
  inferInstanceAs (Decidable (∀ t ∈ c.types, ∀ n ∈ t.navigations, n.isOwnership →
    c.contains n.target))

/-- Owning navigations lead to types of the catalog, and these know that they are owned. -/
def OwnsTargets (c : Catalog) : Prop :=
  ∀ t ∈ c.types, ∀ n ∈ t.navigations, n.isOwnership →
    ∃ target, c.find? n.target = some target ∧ target.ownership.isSome

theorem OwnsTargets.knowsTargets (h : c.OwnsTargets) : c.KnowsTargets := by
  intro t ht n hn hown
  obtain ⟨target, htarget, _⟩ := h t ht n hn hown
  rw [contains, htarget]
  rfl

/-- **Ownership finds the targets of all owning navigations**, or it fails. -/
theorem ownsTargets_of_applyOwnership (h : Convention.applyOwnership c = .ok c') :
    c'.OwnsTargets := by
  -- the types are those before, framed anew, so that navigations and names are the same
  have hall : Convention.applyAll [.ownership] c = .ok c' := by
    rw [Convention.applyAll, List.foldlM_cons, Convention.apply, h]
    rfl
  have hframes := frames_applyAll hall
  obtain ⟨_, hchecked, hrecorded⟩ := Except.bind_eq_ok_iff.mp h
  intro t' ht' n hn hown
  obtain ⟨t, ht, hframe⟩ := exists_of_frames hframes ht'
  have hnavigations := congrArg EntityType.navigations hframe
  have hmem : n ∈ c.types.flatMap (·.navigations) :=
    List.mem_flatMap.mpr ⟨t, ht, hnavigations.symm ▸ hn⟩
  -- ownership checks targets before it records any
  have htarget := Except.forM_eq_ok_iff.mp hchecked n hmem
  unfold Convention.checkTarget at htarget
  split at htarget
  · rename_i hcontains
    rw [contains, ← find?_isSome_of_frames hframes] at hcontains
    obtain ⟨target, htarget⟩ := Option.isSome_iff_exists.mp hcontains
    refine ⟨target, htarget, ?_⟩
    have hrecords := Convention.records_of_recorded hrecorded n
      (List.mem_filter.mpr ⟨hmem, hown⟩) target (List.mem_of_find?_eq_some htarget)
    rw [hrecords (by simpa using List.find?_some htarget)]
    rfl
  · cases htarget

theorem ownsTargets_mapTypes {f : EntityType → EntityType}
    (hf : ∀ t : EntityType, t.Completes (f t)) (hc : c.OwnsTargets) :
    (c.mapTypes f).OwnsTargets := by
  intro t' ht' n hn hown
  obtain ⟨t, ht, rfl⟩ := List.mem_map.mp ht'
  obtain ⟨target, htarget, howned⟩ := hc t ht n ((hf t).navigations ▸ hn) hown
  refine ⟨f target, ?_, by rwa [(hf target).ownership]⟩
  rw [find?_mapTypes fun t => (hf t).name, htarget]
  rfl

theorem ownsTargets_applyAll_defaults {naming : CollectionNaming}
    (h : Convention.applyAll (Convention.defaults naming) c = .ok c') : c'.OwnsTargets := by
  rw [Convention.applyAll, Convention.defaults, List.foldlM_cons] at h
  obtain ⟨c₁, hownership, h⟩ := Except.bind_eq_ok_iff.mp h
  refine Except.foldlM_keeps ?_ h (ownsTargets_of_applyOwnership hownership)
  intro d convention d' hconvention hd hd'
  have hne : convention ≠ .ownership := by
    rintro rfl
    simp at hconvention
  obtain ⟨f, rfl, hf⟩ := Convention.apply_eq_mapTypes hne hd'
  exact ownsTargets_mapTypes hf hd

end Catalog

namespace Model

variable {m : Model} {conventions : List Convention} {s : Schema}

theorem complete_eq_ok {steps : List CatalogStep} (h : m.complete steps = .ok s) :
    m.checkBases = .ok () ∧ m.link.run steps = .ok s.toCatalog ∧ s.validate = .ok ()
      ∧ s.discriminatorElement = m.discriminatorElement := by
  obtain ⟨_, hbases, h⟩ := Except.bind_eq_ok_iff.mp h
  obtain ⟨c, hrun, h⟩ := Except.bind_eq_ok_iff.mp h
  obtain ⟨_, hvalid, h⟩ := Except.bind_eq_ok_iff.mp h
  cases Except.pure_eq_ok_iff.mp h
  exact ⟨hbases, hrun, hvalid, rfl⟩

theorem applyAll_of_finish (h : m.finish conventions = .ok s) :
    Convention.applyAll conventions m.link = .ok s.toCatalog := by
  rw [← Convention.run_map_apply]
  exact (complete_eq_ok h).2.1

theorem finish_ownsTargets {naming : CollectionNaming}
    (h : m.finish (Convention.defaults naming) = .ok s) : s.OwnsTargets :=
  Catalog.ownsTargets_applyAll_defaults (applyAll_of_finish h)

theorem finish_declaresMembers (h : m.finish conventions = .ok s) (hm : m.DeclaresMembers) :
    s.DeclaresMembers :=
  Catalog.declaresMembers_applyAll (applyAll_of_finish h) (Catalog.declaresMembers_link hm)

end Model

end Odm
