import Mathlib.Data.List.Forall2
import Odm.Proofs.Schema.Elements

/-!
# Conventions only fill gaps

Whatever conventions run, and in which order: what the author of a model chose is still there when
they are done. A setting that is given stays as it is given, and a property stays the property that
was declared, with its element and its generation filled in where they were left open.

There is one exception. A type that is embedded loses its key, and all properties that have the
name of a shadow property of the key. The key may have been listed or discovered. So along a run a
type is *whole*, with the key that it has or would discover, or it is *embedded*, without a key and
without those properties; from there no convention takes anything more.

The usual conventions leave no gap. Each of them fills a gap of its own and opens none that an
earlier one has filled, and on a type without gaps all of them do nothing.
-/

namespace Odm

/-! ## Properties -/

namespace Property

/-- A property without what conventions fill in. -/
def bare (p : Property) : Property := { p with elementName := none, generation? := none }

/-- A property with its open settings filled in. -/
structure Fills (p p' : Property) : Prop where
  bare : p'.bare = p.bare
  elementName : ∀ element ∈ p.elementName, element ∈ p'.elementName
  generation : ∀ generation ∈ p.generation?, generation ∈ p'.generation?

namespace Fills

variable {p p' p'' : Property}

theorem refl (p : Property) : p.Fills p := ⟨rfl, fun _ => id, fun _ => id⟩

theorem trans (h : p.Fills p') (h' : p'.Fills p'') : p.Fills p'' where
  bare := h'.bare.trans h.bare
  elementName _ he := h'.elementName _ (h.elementName _ he)
  generation _ hg := h'.generation _ (h.generation _ hg)

theorem name (h : p.Fills p') : p'.name = p.name := by
  have hname := congrArg Property.name h.bare
  exact hname

end Fills

/-- What a search by name finds does not depend on what is filled in. -/
theorem find?_of_fills {ps ps' : List Property} (h : List.Forall₂ Fills ps ps')
    (names : Property → Bool) (hnames : ∀ p, names p.bare = names p) :
    (ps'.find? names).map bare = (ps.find? names).map bare := by
  induction h with
  | nil => rfl
  | @cons p p' _ _ hp _ ih =>
    have hsame : names p' = names p := by rw [← hnames p', hp.bare, hnames]
    rw [List.find?_cons, List.find?_cons, hsame]
    split
    · exact congrArg some hp.bare
    · exact ih

end Property

open Property (Fills)

/-! ## Settings -/

/-- A type with open settings filled in. -/
structure EntityType.Fills (t t' : EntityType) : Prop where
  frame : t'.frame = t.frame
  isOwned : t.isOwned → t'.isOwned
  isComplex : t.isComplex → t'.isComplex
  collection : ∀ collection ∈ t.collection, collection ∈ t'.collection
  discriminatorValue : ∀ d ∈ t.discriminatorValue, d ∈ t'.discriminatorValue
  ownership : ∀ o ∈ t.ownership, o ∈ t'.ownership

namespace EntityType.Fills

variable {t t' t'' : EntityType}

theorem refl (t : EntityType) : t.Fills t :=
  ⟨rfl, id, id, fun _ => id, fun _ => id, fun _ => id⟩

theorem trans (h : t.Fills t') (h' : t'.Fills t'') : t.Fills t'' where
  frame := h'.frame.trans h.frame
  isOwned howned := h'.isOwned (h.isOwned howned)
  isComplex hcomplex := h'.isComplex (h.isComplex hcomplex)
  collection _ hc := h'.collection _ (h.collection _ hc)
  discriminatorValue _ hd := h'.discriminatorValue _ (h.discriminatorValue _ hd)
  ownership _ ho := h'.ownership _ (h.ownership _ ho)

theorem name (h : t.Fills t') : t'.name = t.name := by
  have hname := congrArg EntityType.name h.frame
  exact hname

theorem base (h : t.Fills t') : t'.base = t.base := by
  have hbase := congrArg EntityType.base h.frame
  exact hbase

/-- Keys and properties apart, every setting of the one type is that of the other. -/
theorem of_eq {key : Option (List String)} {properties : List Property}
    (h : t' = { t with key := key, properties := properties }) : t.Fills t' := by
  subst h
  exact ⟨rfl, id, id, fun _ => id, fun _ => id, fun _ => id⟩

end EntityType.Fills

namespace Convention

variable {conventions : List Convention} {t t' t'' : EntityType}

theorem discoverKey_fills (t : EntityType) : t.Fills (discoverKey t) := by
  unfold discoverKey
  split
  · exact .refl t
  · exact .of_eq rfl

theorem embed_fills (t : EntityType) : t.Fills (embed t) := by
  unfold embed
  split
  · exact ⟨rfl, id, fun _ => rfl, fun _ => id, fun _ => id, fun _ => id⟩
  · split
    · exact ⟨rfl, id, fun _ => rfl, fun _ => id, fun _ => id, fun _ => id⟩
    · exact .refl t

theorem nameElements_fills (keyElement : String) (camelCase : Bool) (t : EntityType) :
    t.Fills (nameElements keyElement camelCase t) := .of_eq rfl

theorem nameCollection_fills (naming : CollectionNaming) (t : EntityType) :
    t.Fills (nameCollection naming t) := by
  unfold nameCollection
  split
  · rename_i hopen
    refine ⟨rfl, id, id, ?_, fun _ => id, fun _ => id⟩
    intro collection hcollection
    rw [Option.mem_def.mp hcollection] at hopen
    simp at hopen
  · exact .refl t

theorem nameDiscriminator_fills (t : EntityType) : t.Fills (nameDiscriminator t) := by
  refine ⟨rfl, id, id, fun _ => id, ?_, fun _ => id⟩
  intro d hd
  rw [nameDiscriminator, EntityType.discriminator, Option.mem_def.mp hd]
  rfl

theorem generateKey_fills (t : EntityType) : t.Fills (generateKey t) := by
  unfold generateKey
  split
  · exact .refl t
  · split
    · exact .refl t
    · exact .of_eq rfl

/-- A navigation fills in the ownership of its target, unless another one is recorded. -/
theorem owned_fills {n : Navigation} (h : ∀ o ∈ t.ownership, o = ownershipOf n) :
    t.Fills (owned n t) := by
  refine ⟨rfl, fun _ => rfl, id, fun _ => id, fun _ => id, ?_⟩
  intro o ho
  rw [h o ho]
  rfl

theorem nameElement_fills (key : Option String) (keyElement : String) (camelCase : Bool)
    (p : Property) : p.Fills (nameElement key keyElement camelCase p) := by
  unfold nameElement
  split
  · exact .refl p
  · rename_i hopen
    have hnone : p.elementName = none := by simpa using hopen
    -- the element is open, so any name may be filled in
    have hfills : ∀ element, p.Fills { p with elementName := some element } := by
      intro element
      refine ⟨rfl, ?_, fun _ => id⟩
      intro chosen hchosen
      rw [hnone] at hchosen
      cases hchosen
    split
    · exact hfills _
    · split
      · exact hfills _
      · exact .refl p

theorem generateProperty_fills (key : String) (p : Property) :
    p.Fills (generateProperty key p) := by
  unfold generateProperty
  split
  · rename_i hopen
    refine ⟨rfl, fun _ => id, ?_⟩
    intro generation hg
    rw [Option.mem_def.mp hg] at hopen
    simp at hopen
  · exact .refl p

/-! ## Keys and properties -/

/-- A type with the key that it has, or discovers if conventions discover keys. -/
def keyed (conventions : List Convention) (t : EntityType) : EntityType :=
  if .keyDiscovery ∈ conventions then discoverKey t else t

theorem properties_keyed (conventions : List Convention) (t : EntityType) :
    (keyed conventions t).properties = t.properties := by
  unfold keyed
  split
  · exact properties_discoverKey t
  · rfl

/-- A type with a listed key discovers none. -/
theorem keyed_of_key (h : t.key.isSome) : keyed conventions t = t := by
  unfold keyed
  split
  · rw [discoverKey, h, Bool.true_or, Bool.true_or, if_pos rfl]
  · rfl

/-- What a run leaves of the key and the properties of a type. -/
inductive Members (conventions : List Convention) (t t' : EntityType) : Prop where
  /-- Nothing is lost, and a key may have been discovered. -/
  | whole (key : t'.key = t.key ∨ t'.key = (keyed conventions t).key)
    (properties : List.Forall₂ Fills t.properties t'.properties)
  /-- The key is lost, and with it all properties named like its shadow properties. -/
  | embedded (owned : t'.isOwned) (key : t'.key = none) (lost : List String)
    (shadow : ∀ name ∈ lost, name ∈ shadowKeys (keyed conventions t))
    (properties : List.Forall₂ Fills (t.properties.filter fun p => !lost.contains p.name)
      t'.properties)

namespace Members

theorem refl (conventions : List Convention) (t : EntityType) : Members conventions t t :=
  .whole (.inl rfl) (List.forall₂_same.mpr fun p _ => .refl p)

/-- Filling in properties loses nothing. -/
theorem fill {g : Property → Property} (h : Members conventions t t') (hg : ∀ p, Fills p (g p))
    (howned : t'.isOwned → t''.isOwned) (hkey : t''.key = t'.key)
    (hproperties : t''.properties = t'.properties.map g) : Members conventions t t'' := by
  have hfills : ∀ {ps}, List.Forall₂ Fills ps t'.properties →
      List.Forall₂ Fills ps t''.properties := by
    intro ps hps
    rw [hproperties, List.forall₂_map_right_iff]
    exact hps.imp fun _ p hp => hp.trans (hg p)
  cases h with
  | whole key properties => exact .whole (by rwa [hkey]) (hfills properties)
  | embedded owned key lost shadow properties =>
    exact .embedded (howned owned) (hkey.trans key) lost shadow (hfills properties)

theorem congr (h : Members conventions t t') (howned : t'.isOwned → t''.isOwned)
    (hkey : t''.key = t'.key) (hproperties : t''.properties = t'.properties) :
    Members conventions t t'' :=
  h.fill .refl howned hkey (by rw [hproperties, List.map_id'])

/-- The key that a whole type discovers is the one that it would have discovered before. -/
theorem discoverKey (h : Members conventions t t') (hfills : t.Fills t')
    (hmem : .keyDiscovery ∈ conventions) : Members conventions t (discoverKey t') := by
  by_cases hopen : t'.key.isSome || t'.base.isSome || t'.isOwned
  · rwa [Convention.discoverKey, if_pos hopen]
  · have hnone : (t'.key = none ∧ t'.base = none) ∧ t'.isOwned = false := by simpa using hopen
    obtain ⟨⟨hkey, hbase⟩, howned⟩ := hnone
    cases h with
    | embedded owned => rw [howned] at owned; cases owned
    | whole key properties =>
      refine .whole (.inr ?_) (by rwa [properties_discoverKey])
      have howned' : t.isOwned = false := by
        cases ht : t.isOwned with
        | false => rfl
        | true => rw [hfills.isOwned ht] at howned; cases howned
      have hbase' : t.base = none := hfills.base ▸ hbase
      -- a listed key would still be there
      have hkey' : t.key = none := by
        cases ht : t.key with
        | none => rfl
        | some k =>
          rw [keyed_of_key (by rw [ht]; rfl), or_self, hkey, ht] at key
          cases key
      have hfound := Property.find?_of_fills properties (namesKey t') fun _ => rfl
      have hnames : namesKey t' = namesKey t := by
        funext p
        rw [namesKey, namesKey, hfills.name]
      rw [keyed, if_pos hmem, key_discoverKey hbase howned, key_discoverKey hbase' howned', hkey,
        hkey', ← hnames]
      have hfoundNames := congrArg (Option.map fun p : Property => [p.name]) hfound
      rw [Option.map_map, Option.map_map] at hfoundNames
      exact hfoundNames

/-- Whether a property is a shadow property does not depend on what is filled in. -/
theorem isShadow_property? {ps ps' : List Property} (h : List.Forall₂ Fills ps ps')
    (name : String) :
    (ps'.find? (·.name = name)).any (·.isShadow) = (ps.find? (·.name = name)).any (·.isShadow) := by
  have hfound := congrArg (Option.any fun p : Property => p.isShadow)
    (Property.find?_of_fills h (fun p => decide (p.name = name)) fun _ => rfl)
  rw [Option.any_map, Option.any_map] at hfound
  exact hfound

/-- **A type that is embedded loses what is named like a shadow property of its key**, once. -/
theorem embed (h : Members conventions t t') : Members conventions t (embed t') := by
  cases howned : t'.isOwned with
  | false =>
    refine h.congr (embed_fills t').isOwned (key_embed howned) ?_
    rw [Convention.embed, howned, if_neg Bool.false_ne_true]
    split <;> rfl
  | true =>
    have hembed : Convention.embed t' = { t' with
        key := none
        properties := t'.properties.filter fun p => !(shadowKeys t').contains p.name
        isComplex := true } := by rw [Convention.embed, if_pos howned]
    cases h with
    -- with its key, a type loses the properties that are named like the key's shadow properties
    | whole key properties =>
      refine .embedded ?_ ?_ (shadowKeys t') ?_ ?_
      · rwa [hembed]
      · rw [hembed]
      · intro name hname
        obtain ⟨hlisted, hshadow⟩ := List.mem_filter.mp hname
        refine List.mem_filter.mpr ⟨?_, ?_⟩
        · -- the key is the author's, or was discovered where the author has none
          rcases key with hkey | hkey
          · rw [hkey] at hlisted
            rw [keyed_of_key]
            · exact hlisted
            · cases ht : t.key with
              | none => rw [ht] at hlisted; cases hlisted
              | some _ => rfl
          · rwa [hkey] at hlisted
        · rw [EntityType.property?, properties_keyed, ← isShadow_property? properties]
          exact hshadow
      · rw [hembed]
        refine List.rel_filter ?_ properties
        intro p p' hp
        dsimp only
        rw [hp.name]
    | embedded owned key lost shadow properties =>
      -- without a key there is nothing more to lose
      have hnone : shadowKeys t' = [] := by rw [shadowKeys, key]; rfl
      have hall : (t'.properties.filter fun p => !(shadowKeys t').contains p.name)
          = t'.properties := by
        rw [hnone]
        exact List.filter_eq_self.mpr fun _ _ => rfl
      rw [hembed, hall]
      exact .embedded howned rfl lost shadow properties

end Members

/-! ## What is kept -/

/-- What the author of a type chose, the type has after some conventions. -/
structure Keeps (conventions : List Convention) (t t' : EntityType) : Prop extends
    t.Fills t' where
  /-- The key stays unless the type is embedded. -/
  key : t'.isOwned = false → ∀ key ∈ t.key, key ∈ t'.key
  /-- Properties stay unless the type is embedded and they are named like a shadow property of its
  key. -/
  properties : ∃ lost : List String,
    List.Forall₂ Property.Fills (t.properties.filter fun p => !lost.contains p.name) t'.properties
    ∧ ∀ name ∈ lost, t'.isOwned ∧ name ∈ shadowKeys (keyed conventions t)

/-- What a run keeps of a type. -/
structure Tracks (conventions : List Convention) (t t' : EntityType) : Prop where
  fills : t.Fills t'
  members : Members conventions t t'

theorem Tracks.keeps (h : Tracks conventions t t') : Keeps conventions t t' := by
  refine { toFills := h.fills, key := ?_, properties := ?_ }
  · intro howned key hkey
    cases h.members with
    | embedded owned => rw [howned] at owned; cases owned
    | whole hkept =>
      -- the author's key is not looked for, so it is the one that was kept
      rw [keyed_of_key (by rw [Option.mem_def.mp hkey]; rfl), or_self] at hkept
      rwa [hkept]
  · cases h.members with
    | whole _ properties =>
      -- a whole type has lost nothing
      have hall : (t.properties.filter fun p => !([] : List String).contains p.name)
          = t.properties := List.filter_eq_self.mpr fun _ _ => rfl
      exact ⟨[], by rwa [hall], nofun⟩
    | embedded owned _ lost shadow properties =>
      exact ⟨lost, properties, fun name hname => ⟨owned, shadow name hname⟩⟩

/-- A convention that goes type by type keeps what every type keeps. -/
theorem Tracks.apply {convention : Convention} {c c' : Catalog}
    (hmem : convention ∈ conventions) (hne : convention ≠ .ownership)
    (h : convention.apply c = .ok c') :
    ∃ f : EntityType → EntityType, c' = c.mapTypes f
      ∧ ∀ t t', Tracks conventions t t' → Tracks conventions t (f t') := by
  -- only ownership does not go type by type
  cases convention with
  | ownership => exact absurd rfl hne
  | keyDiscovery =>
    cases h
    exact ⟨_, rfl, fun t t' ht =>
      ⟨ht.fills.trans (discoverKey_fills t'), ht.members.discoverKey ht.fills hmem⟩⟩
  | ownedDocument =>
    cases h
    exact ⟨_, rfl, fun t t' ht => ⟨ht.fills.trans (embed_fills t'), ht.members.embed⟩⟩
  | elementName keyElement camelCase =>
    cases h
    exact ⟨_, rfl, fun t t' ht => ⟨ht.fills.trans (nameElements_fills _ _ t'),
      ht.members.fill (nameElement_fills _ _ _) id rfl rfl⟩⟩
  | collectionName naming =>
    cases h
    refine ⟨_, rfl, fun t t' ht => ⟨ht.fills.trans (nameCollection_fills naming t'), ?_⟩⟩
    unfold nameCollection
    split
    · exact ht.members.congr id rfl rfl
    · exact ht.members
  | discriminator =>
    cases h
    exact ⟨_, rfl, fun t t' ht => ⟨ht.fills.trans (nameDiscriminator_fills t'),
      ht.members.congr id rfl rfl⟩⟩
  | valueGeneration =>
    cases h
    refine ⟨_, rfl, fun t t' ht => ⟨ht.fills.trans (generateKey_fills t'), ?_⟩⟩
    unfold generateKey
    split
    · exact ht.members
    · split
      · exact ht.members
      · exact ht.members.fill (generateProperty_fills _) id rfl rfl

/-- What is kept of types has the frames that they had. -/
theorem frames_of_tracks {c c' : Catalog}
    (h : List.Forall₂ (Tracks conventions) c.types c'.types) : c'.frames = c.frames := by
  have hframes : List.Forall₂ (fun t t' => t.frame = t'.frame) c.types c'.types :=
    h.imp fun _ _ ht => ht.fills.frame.symm
  rw [← List.forall₂_map_right_iff, ← List.forall₂_map_left_iff, List.forall₂_eq_eq_eq] at hframes
  exact hframes.symm

/-- Recording ownership keeps what every type keeps, where there is one type of each name. -/
theorem Tracks.recordOwnership {c d d' : Catalog} {n : Navigation} (hc : c.Sorted)
    (hd : List.Forall₂ (Tracks conventions) c.types d.types)
    (h : recordOwnership d n = .ok d') :
    List.Forall₂ (Tracks conventions) c.types d'.types := by
  -- edited types have the names and bases of the author's, so there is one of each name still
  have hsorted : d.Sorted := by
    refine Catalog.sorted_of_skeleton ?_ hc
    rw [Catalog.skeleton_of_frames, frames_of_tracks hd, ← Catalog.skeleton_of_frames]
  have hmem : List.Forall₂ (fun t t' => t' ∈ d.types ∧ Tracks conventions t t') c.types d.types :=
    ((List.forall₂_and_left d.types c.types).mpr ⟨fun _ => id, hd.flip⟩).flip
  rw [recordOwnership_eq_ok h]
  refine List.forall₂_map_right_iff.mpr (hmem.imp ?_)
  rintro t t' ⟨ht', htracks⟩
  split
  · rename_i htarget
    have hfound : d.find? n.target = some t' := htarget ▸ hsorted.find?_of_mem ht'
    refine ⟨htracks.fills.trans (owned_fills ?_), htracks.members.congr (fun _ => rfl) rfl rfl⟩
    exact fun o ho => ownership_of_recordOwnership h hfound ho
  · exact htracks

/-- Linking keeps everything, since no author writes down links. -/
theorem tracks_link (conventions : List Convention) (c : Catalog) :
    List.Forall₂ (Tracks conventions) c.types c.link.types := by
  refine List.forall₂_map_right_iff.mpr (List.forall₂_same.mpr fun t _ => ?_)
  exact ⟨⟨rfl, id, id, fun _ => id, fun _ => id, fun _ => id⟩,
    (Members.refl conventions t).congr id rfl rfl⟩

/-- **Every run keeps what the authors of the types chose.** -/
theorem tracks_applyAll {c d d' : Catalog} (hc : c.Sorted)
    (hd : List.Forall₂ (Tracks conventions) c.types d.types)
    (h : applyAll conventions d = .ok d') :
    List.Forall₂ (Tracks conventions) c.types d'.types := by
  refine Except.foldlM_keeps (P := fun d : Catalog =>
    List.Forall₂ (Tracks conventions) c.types d.types) ?_ h hd
  intro d convention d' hmem hd h
  by_cases hconvention : convention = .ownership
  · subst hconvention
    obtain ⟨_, _, h⟩ := Except.bind_eq_ok_iff.mp h
    exact Except.foldlM_keeps (fun _ _ _ _ hd h => Tracks.recordOwnership hc hd h) h hd
  · obtain ⟨f, rfl, hf⟩ := Tracks.apply hmem hconvention h
    exact List.forall₂_map_right_iff.mpr (hd.imp hf)

/-! ## No gap is left -/

/-- A type in which the usual conventions find nothing to fill in. -/
structure Complete (t : EntityType) : Prop where
  key : t.key = none → t.base = none → t.isOwned = false → t.properties.find? (namesKey t) = none
  embedded : t.isOwned → t.key = none ∧ t.isComplex
  keyless : t.key = none → t.base = none → t.isComplex
  elementName : t.base = none → ∀ p ∈ t.properties, singleKey? t = some p.name →
    p.elementName.isSome
  collection : t.base = none → t.isOwned = false → t.collection.isSome
  discriminatorValue : t.discriminatorValue.isSome
  generation : t.isOwned = false → ∀ p ∈ t.properties, singleKey? t = some p.name →
    isGenerated p.type → p.generation?.isSome

namespace Complete

variable {naming : CollectionNaming} (h : Complete t)

include h

theorem discoverKey_eq : discoverKey t = t := by
  unfold discoverKey
  split
  · rfl
  · rename_i hopen
    have hnone : (t.key = none ∧ t.base = none) ∧ t.isOwned = false := by simpa using hopen
    obtain ⟨⟨hkey, hbase⟩, howned⟩ := hnone
    rw [h.key hkey hbase howned, Option.map_none, ← hkey]

theorem embed_eq : embed t = t := by
  unfold embed
  split
  · rename_i howned
    -- an embedded type is complex and has no key already, so it has no shadow keys to lose
    obtain ⟨hkey, hcomplex⟩ := h.embedded howned
    have hnone : shadowKeys t = [] := by rw [shadowKeys, hkey]; rfl
    have hall : (t.properties.filter fun p => !(shadowKeys t).contains p.name) = t.properties := by
      rw [hnone]
      exact List.filter_eq_self.mpr fun _ _ => rfl
    rw [hall, ← hkey, ← hcomplex]
  · split
    · rename_i hopen
      have hnone : t.key = none ∧ t.base = none := by simpa using hopen
      rw [← h.keyless hnone.1 hnone.2]
    · rfl

theorem nameElements_eq : nameElements defaultKeyElement false t = t := by
  have hsame : ∀ p ∈ t.properties,
      nameElement (if t.base.isNone then singleKey? t else none) defaultKeyElement false p = p := by
    intro p hp
    -- the key property is the only one that would get the name of the key's element
    have hnamed : (if t.base.isNone then singleKey? t else none) = some p.name →
        p.elementName.isSome := by
      cases hbase : t.base with
      | none => exact fun hkey => h.elementName hbase p hp hkey
      | some base => nofun
    unfold nameElement
    split
    · rfl
    · rename_i hopen
      rw [if_neg fun hkey => hopen (hnamed hkey), if_neg Bool.false_ne_true]
  rw [nameElements, List.map_congr_left hsame, List.map_id']

theorem nameCollection_eq : nameCollection naming t = t := by
  unfold nameCollection
  split
  · rename_i hopen
    have hnone : (t.base = none ∧ t.isOwned = false) ∧ t.collection = none := by
      simpa using hopen
    obtain ⟨⟨hbase, howned⟩, hcollection⟩ := hnone
    have hsome := h.collection hbase howned
    rw [hcollection] at hsome
    cases hsome
  · rfl

theorem nameDiscriminator_eq : nameDiscriminator t = t := by
  obtain ⟨d, hd⟩ := Option.isSome_iff_exists.mp h.discriminatorValue
  rw [nameDiscriminator, EntityType.discriminator, hd, Option.getD_some, ← hd]

theorem generateKey_eq : generateKey t = t := by
  unfold generateKey
  split
  · rfl
  · rename_i key hkey
    split
    · rfl
    · rename_i howned
      have hsame : ∀ p ∈ t.properties, generateProperty key p = p := by
        intro p hp
        unfold generateProperty
        split
        · -- a property that would get a generation has one, as the type is complete
          rename_i hopen
          have hnone : (p.name = key ∧ p.generation? = none) ∧ isGenerated p.type := by
            simpa using hopen
          obtain ⟨⟨rfl, hgeneration⟩, htype⟩ := hnone
          have hsome := h.generation (by simpa using howned) p hp hkey htype
          rw [hgeneration] at hsome
          cases hsome
        · rfl
      rw [List.map_congr_left hsame, List.map_id']

end Complete

/-- A convention that fills in collections. -/
theorem exists_nameCollection (naming : CollectionNaming) (t : EntityType) :
    ∃ collection, nameCollection naming t = { t with collection := collection }
      ∧ (t.base = none → t.isOwned = false → collection.isSome) := by
  unfold nameCollection
  split
  · exact ⟨_, rfl, fun _ _ => rfl⟩
  · rename_i hclosed
    refine ⟨t.collection, rfl, ?_⟩
    intro hbase howned
    cases hcollection : t.collection with
    | some collection => rfl
    | none => exact absurd (by rw [hbase, howned, hcollection]; rfl) hclosed

/-- The only key property has a generation if it can be generated. -/
theorem exists_generateKey (t : EntityType) :
    ∃ g : Property → Property, generateKey t = { t with properties := t.properties.map g }
      ∧ (∀ p, Fills p (g p))
      ∧ (t.isOwned = false → ∀ p, singleKey? t = some p.name → isGenerated p.type →
        (g p).generation?.isSome) := by
  have hid : t = { t with properties := t.properties.map id } := by rw [List.map_id]
  unfold generateKey
  split
  · rename_i hkey
    exact ⟨id, hid, .refl, fun _ p hp => by rw [hkey] at hp; cases hp⟩
  · rename_i key hkey
    split
    · rename_i howned
      exact ⟨id, hid, .refl, fun hunowned => by rw [howned] at hunowned; cases hunowned⟩
    · refine ⟨_, rfl, generateProperty_fills key, ?_⟩
      intro _ p hp htype
      cases Option.some.inj (hkey.symm.trans hp)
      unfold generateProperty
      split
      · rfl
      · rename_i hclosed
        -- the generation was there before, since the condition to set it fails
        cases hgeneration : p.generation? with
        | some generation => rfl
        | none => exact absurd (by simp [hgeneration, htype]) hclosed

theorem isSome_nameElement {key : Option String} {keyElement : String} {camelCase : Bool}
    {p : Property} (h : key = some p.name) :
    (nameElement key keyElement camelCase p).elementName.isSome := by
  unfold nameElement
  split
  · assumption
  · rfl

/-- A type with the key that it discovers is complete once the other settings are filled in. -/
theorem complete_of_embedded {u : EntityType} (naming : CollectionNaming)
    (hkey : u.key = none → u.base = none → u.isOwned = false →
      u.properties.find? (namesKey u) = none)
    (hembedded : u.isOwned → u.key = none ∧ u.isComplex)
    (hkeyless : u.key = none → u.base = none → u.isComplex) :
    Complete (generateKey (nameDiscriminator (nameCollection naming
      (nameElements defaultKeyElement false u)))) := by
  obtain ⟨collection, hcollection, hcollected⟩ :=
    exists_nameCollection naming (nameElements defaultKeyElement false u)
  obtain ⟨g, hgenerate, hfills, hgenerated⟩ := exists_generateKey
    (nameDiscriminator (nameCollection naming (nameElements defaultKeyElement false u)))
  rw [hcollection] at hgenerate hgenerated
  rw [hcollection, hgenerate]
  -- neither names of elements nor generations change what is found by a property's name
  have hnamed : ∀ p, Fills p (nameElement (if u.base.isNone then singleKey? u else none)
      defaultKeyElement false p) := nameElement_fills _ _ _
  have hfound : ((nameElements defaultKeyElement false u).properties.map g).find? (namesKey u)
      = none ↔ u.properties.find? (namesKey u) = none := by
    have hfilled : List.Forall₂ Fills u.properties
        ((nameElements defaultKeyElement false u).properties.map g) := by
      rw [nameElements, List.forall₂_map_right_iff, List.forall₂_map_right_iff]
      exact List.forall₂_same.mpr fun p _ => (hnamed p).trans (hfills _)
    have hsame := Property.find?_of_fills hfilled (namesKey u) fun _ => rfl
    rw [← Option.map_eq_none_iff (f := Property.bare), hsame, Option.map_eq_none_iff]
  have helement : u.base = none →
      ∀ p ∈ (nameElements defaultKeyElement false u).properties.map g,
        singleKey? u = some p.name → p.elementName.isSome := by
    -- the sole key property got an element's name, and what comes later keeps it
    intro hbase p' hp' hsole
    obtain ⟨_, hp, rfl⟩ := List.mem_map.mp hp'
    obtain ⟨p, _, rfl⟩ := List.mem_map.mp hp
    rw [(hfills _).name, (hnamed p).name] at hsole
    have hkey : (if u.base.isNone then singleKey? u else none) = some p.name := by
      rw [hbase]
      exact hsole
    obtain ⟨element, helement⟩ := Option.isSome_iff_exists.mp (isSome_nameElement hkey)
    exact Option.isSome_iff_exists.mpr ⟨element, (hfills _).elementName element helement⟩
  have hgeneration : u.isOwned = false →
      ∀ p ∈ (nameElements defaultKeyElement false u).properties.map g,
        singleKey? u = some p.name → isGenerated p.type → p.generation?.isSome := by
    -- types of properties stay as they are, so what can be generated can be afterwards
    intro howned p' hp' hsole htype
    obtain ⟨p, _, rfl⟩ := List.mem_map.mp hp'
    have htype' := congrArg Property.type (hfills p).bare
    rw [(hfills p).name] at hsole
    exact hgenerated howned p hsole (htype' ▸ htype)
  exact {
    key := fun hnone hbase howned => hfound.mpr (hkey hnone hbase howned)
    embedded := hembedded
    keyless := hkeyless
    elementName := helement
    collection := hcollected
    discriminatorValue := rfl
    generation := hgeneration }

/-- **The usual conventions leave no gap.** -/
theorem complete_completed (naming : CollectionNaming) (t : EntityType) :
    Complete (completed naming t) := by
  have hsettled := (embed_completes (discoverKey t)).settled.trans (discoverKey_completes t).settled
  have hname := congrArg EntityType.name hsettled
  have hbase := congrArg EntityType.base hsettled
  have howned := congrArg EntityType.isOwned hsettled
  replace hname : (embed (discoverKey t)).name = t.name := hname
  replace hbase : (embed (discoverKey t)).base = t.base := hbase
  replace howned : (embed (discoverKey t)).isOwned = t.isOwned := howned
  refine complete_of_embedded naming ?_ ?_ ?_
  · -- with no key listed and none discovered, no property is named like one
    rw [hbase, howned]
    intro hkey hroot hstored
    have hnames : namesKey (embed (discoverKey t)) = namesKey t := by
      funext p
      rw [namesKey, namesKey, hname]
    have hall : (t.properties.filter fun p => !(false && (shadowKeys t).contains p.name))
        = t.properties := List.filter_eq_self.mpr fun _ _ => rfl
    rw [key_embed ((isOwned_discoverKey t).trans hstored), key_discoverKey hroot hstored] at hkey
    rw [hnames, properties_embed, hstored, hall]
    cases hlisted : t.key with
    | some key => rw [hlisted] at hkey; cases hkey
    | none =>
      rw [hlisted] at hkey
      exact Option.map_eq_none_iff.mp hkey
  · rw [howned]
    -- an embedded type has no key left and is complex
    intro hembedded
    rw [discoverKey_of_isOwned hembedded, embed, if_pos hembedded]
    exact ⟨rfl, rfl⟩
  · intro hkey hroot
    -- `embed` makes a type complex just where it leaves it without a key
    unfold embed at hkey hroot ⊢
    split
    · rfl
    · rename_i hstored
      rw [if_neg hstored] at hkey hroot
      split
      · rfl
      · rename_i hopen
        rw [if_neg hopen] at hkey hroot
        exact absurd (by rw [hkey, hroot]; rfl) hopen

/-- What is recorded as the ownership of its target is not recorded again. -/
theorem recordOwnership_eq_self {c : Catalog} {n : Navigation}
    (h : ∀ t ∈ c.types, t.name = n.target →
      t.isOwned ∧ t.ownership = some (ownershipOf n)) : recordOwnership c n = .ok c := by
  -- the type that is changed already has the ownership that it would get
  have hsame : (c.modify n.target fun t =>
      { t with isOwned := true, ownership := some (ownershipOf n) }) = c := by
    rw [Catalog.modify, Catalog.mapTypes]
    refine congrArg Catalog.mk ((List.map_congr_left ?_).trans c.types.map_id')
    intro t ht
    split
    · rename_i htarget
      obtain ⟨howned, hownership⟩ := h t ht htarget
      rw [← howned, ← hownership]
    · rfl
  rw [recordOwnership, hsame]
  split
  · rfl
  · rename_i first hfirst
    obtain ⟨t, ht, hownership⟩ := Option.bind_eq_some_iff.mp hfirst
    have hrecorded := (h t (Catalog.find?_mem ht) (Catalog.find?_name ht)).2
    rw [if_pos (Option.some.inj (hownership.symm.trans hrecorded))]

/-! ## A second run -/

section

variable {naming : CollectionNaming} {c₀ c : Catalog}

/-- Ownership has nothing to record among types that are filled in. -/
theorem applyOwnership_eq_self (h : applyAll (defaults naming) c₀ = .ok c) :
    applyOwnership c = .ok c := by
  obtain ⟨_, htargets, hc⟩ := applyAll_defaults h
  have hnavigations : c.types.flatMap (·.navigations) = c₀.types.flatMap (·.navigations) := by
    rw [hc, Catalog.mapTypes, List.flatMap_map]
    exact congrArg (c₀.types.flatMap ·) (funext (filled_navigations naming _))
  rw [applyOwnership, hnavigations]
  refine Except.bind_eq_ok_iff.mpr ⟨(), Except.forM_eq_ok_iff.mpr ?_, Except.foldlM_eq_self ?_⟩
  · intro n hn
    have hcontains : c.contains n.target := by
      rw [Catalog.contains, hc, Catalog.find?_mapTypes (filled_name naming _), Option.isSome_map]
      exact htargets n hn
    rw [checkTarget, if_pos hcontains]
  · intro n hn
    refine recordOwnership_eq_self ?_
    intro t' ht' htarget
    rw [hc] at ht'
    obtain ⟨t, ht, rfl⟩ := List.mem_map.mp ht'
    rw [filled_name] at htarget
    -- the first run has made the target owned, by this navigation or by one that records the same
    refine ⟨?_, ownership_filled h ht hn htarget⟩
    rw [filled_isOwned, Bool.or_eq_true, List.any_eq_true]
    exact .inr ⟨n, hn, decide_eq_true htarget.symm⟩

/-- **The usual conventions change nothing of what they have made.** -/
theorem applyAll_eq_self (h : applyAll (defaults naming) c₀ = .ok c) :
    applyAll (defaults naming) c = .ok c := by
  have hcomplete : ∀ t ∈ c.types, Complete t := by
    rw [(applyAll_defaults h).2.2]
    intro t' ht'
    obtain ⟨t, _, rfl⟩ := List.mem_map.mp ht'
    exact complete_completed naming _
  have hfixed : ∀ f : EntityType → EntityType, (∀ t, Complete t → f t = t) →
      c.mapTypes f = c := by
    intro f hf
    have htypes : ∀ t ∈ c.types, f t = t := fun t ht => hf t (hcomplete t ht)
    rw [Catalog.mapTypes, List.map_congr_left htypes, List.map_id']
  -- each convention gives back a catalog of complete types
  refine Except.foldlM_eq_self ?_
  intro convention hconvention
  simp only [defaults, List.mem_cons, List.not_mem_nil, or_false] at hconvention
  rcases hconvention with rfl | rfl | rfl | rfl | rfl | rfl | rfl
  · exact applyOwnership_eq_self h
  · exact congrArg Except.ok (hfixed _ fun _ ht => ht.discoverKey_eq)
  · exact congrArg Except.ok (hfixed _ fun _ ht => ht.embed_eq)
  · exact congrArg Except.ok (hfixed _ fun _ ht => ht.nameElements_eq)
  · exact congrArg Except.ok (hfixed _ fun _ ht => ht.nameCollection_eq)
  · exact congrArg Except.ok (hfixed _ fun _ ht => ht.nameDiscriminator_eq)
  · exact congrArg Except.ok (hfixed _ fun _ ht => ht.generateKey_eq)

end

end Convention

/-- **Conventions only fill gaps.** Whatever conventions run, and in whatever order: when a model
is finished, every type has all that its author chose, down to the elements and generations of its
properties. A type loses its key, and properties that are named like a shadow property of it, only
where it is embedded. And the usual conventions change nothing of what they have made. -/
theorem conventions_fill_gaps {m : Model} (hm : m.Sorted) :
    (∀ (conventions : List Convention) (s : Schema), m.finish conventions = .ok s →
      s.discriminatorElement = m.discriminatorElement
        ∧ List.Forall₂ (Convention.Keeps conventions) m.types s.types)
    ∧ ∀ (naming : CollectionNaming) (c c' : Catalog),
      Convention.applyAll (Convention.defaults naming) c = .ok c' →
        Convention.applyAll (Convention.defaults naming) c' = .ok c' := by
  refine ⟨?_, fun naming c c' => Convention.applyAll_eq_self⟩
  intro conventions s h
  refine ⟨Model.finish_discriminatorElement h, ?_⟩
  have htracks := Convention.tracks_applyAll hm (Convention.tracks_link conventions m.toCatalog)
    (Model.applyAll_of_finish h)
  exact htracks.imp fun _ _ ht => ht.keeps

/-! ## Orders and their lines -/

/-- Orders are stored as sales and embed their lines. A line has two properties of one name. -/
def orderModel : Model where
  types := [
    { name := "Line", key := some ["LineId"]
      properties := [⟨"LineId", "Line", .int32, none, true, false, none⟩,
        ⟨"LineId", "Line", .int32, none, false, false, none⟩,
        ⟨"Quantity", "Line", .int32, some "qty", false, false, none⟩] },
    { name := "Order", collection := some "sales"
      properties := [⟨"Id", "Order", .int32, none, false, false, none⟩]
      navigations := [⟨"Lines", "Order", "Line", true, true⟩] }]

/-- The schema of orders. -/
def orders : Schema where
  types := [
    { name := "Line", isOwned := true, isComplex := true, discriminatorValue := some "Line"
      ownership := some ⟨"Order", "Lines", true⟩
      properties := [⟨"Quantity", "Line", .int32, some "qty", false, false, none⟩] },
    { name := "Order", collection := some "sales", discriminatorValue := some "Order"
      key := some ["Id"]
      properties := [⟨"Id", "Order", .int32, some "_id", false, false, some .onAdd⟩]
      navigations := [⟨"Lines", "Order", "Line", true, true⟩] }]
  discriminatorElement := "_t"

/-- Orders stay sales, and the usual conventions have nothing to add to their schema. -/
theorem conventions_fill_gaps_orders :
    orderModel.Sorted ∧ orderModel.finish (Convention.defaults .typeName) = .ok orders
      ∧ List.Forall₂ (Convention.Keeps (Convention.defaults .typeName)) orderModel.types
        orders.types
      ∧ Convention.applyAll (Convention.defaults .typeName) orders.toCatalog
        = .ok orders.toCatalog := by
  have hm : orderModel.Sorted := by decide
  have h : orderModel.finish (Convention.defaults .typeName) = .ok orders := rfl
  obtain ⟨hkeeps, hagain⟩ := conventions_fill_gaps hm
  exact ⟨hm, h, (hkeeps _ _ h).2, hagain _ _ _ (Model.applyAll_of_finish h)⟩

/-- A line loses both properties that are named like its shadow key, also the one that is no shadow
property. -/
theorem lineId_lost :
    orderModel.finish (Convention.defaults .typeName) = .ok orders
      ∧ (⟨"LineId", "Line", .int32, none, false, false, none⟩ : Property)
        ∈ orderModel.types.flatMap (·.properties)
      ∧ ∀ t ∈ orders.types, ∀ p ∈ t.properties, p.name ≠ "LineId" := by
  exact ⟨rfl, by decide, by decide⟩

end Odm
