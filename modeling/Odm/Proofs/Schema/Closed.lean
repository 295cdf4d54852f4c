import Odm.Proofs.Schema.Gaps
import Odm.Proofs.Schema.Owners
import Odm.Proofs.Update.Layout
import Odm.Query.BindingSession

/-!
# Closed schemas

Types refer to each other and to their members by name: bases, targets of navigations, owners,
key properties. Wherever a schema looks such a name up it leaves out what it does not find, or
reports an unknown type. In a *closed* schema nothing is left out and nothing is unknown, because
all names are names of something.

That a schema is closed is the work of three. The check of base types says it of bases, ownership
of the targets of navigations, and validation of keys and of what documents can hold. No key is
left on an embedded type because the conventions take it away before the keys are checked.

Two names come from outside and are taken as they are. An owner is known where an owning navigation
records it, because a type of the schema declares that navigation; where there is none, the type
keeps the ownership that its author wrote down. And whoever binds a member by its name may ask for
any type, which is the only way to meet an unknown one.
-/

namespace Odm

/-! ## Names that are found -/

/-- Where all names are found, a search leaves none of them out. -/
theorem map_filterMap_of_found {α : Type} {find? : String → Option α} {nameOf : α → String}
    (hname : ∀ name a, find? name = some a → nameOf a = name) {names : List String}
    (hfound : ∀ name ∈ names, (find? name).isSome) :
    (names.filterMap find?).map nameOf = names := by
  induction names with
  | nil => rfl
  | cons name rest ih =>
    obtain ⟨hfirst, hrest⟩ := List.forall_mem_cons.mp hfound
    obtain ⟨a, ha⟩ := Option.isSome_iff_exists.mp hfirst
    rw [List.filterMap_cons_some ha, List.map_cons, hname name a ha, ih hrest]

theorem EntityType.property?_name {t : EntityType} {name : String} {p : Property}
    (h : t.property? name = some p) : p.name = name := by
  simpa using List.find?_some h

/-! ## Closed schemas -/

namespace Schema

variable {s : Schema} {t : EntityType} {n : Navigation}

/-- Whatever the types of a schema declare is there. -/
structure Closed (s : Schema) : Prop where
  base : ∀ t ∈ s.types, ∀ base ∈ t.base, s.contains base
  target : ∀ t ∈ s.types, ∀ n ∈ t.navigations, s.contains n.target
  mapping : ∀ t ∈ s.types, ∀ p ∈ t.properties, p.type.mapping?.isSome
  key : ∀ t ∈ s.types, ∀ key ∈ t.key, ∀ name ∈ key, (t.property? name).isSome
  keyless : ∀ t ∈ s.types, t.isOwned → t.key = none

/-- **The primary key of a type is the key that its root lists.** -/
theorem Closed.keyProperties_eq (h : s.Closed) {name : String} {root : EntityType}
    (hroot : s.root? name = some root) :
    (s.keyProperties name).map (·.name) = root.key.getD []
      ∧ ∀ p ∈ s.keyProperties name, p ∈ root.properties := by
  rw [keyProperties, hroot]
  refine ⟨?_, ?_⟩
  · refine map_filterMap_of_found (fun _ _ => EntityType.property?_name) ?_
    cases hkey : root.key with
    | none => exact nofun
    | some key => exact h.key root (Catalog.mem_types_of_root? hroot) key hkey
  · intro p hp
    obtain ⟨name, _, hfound⟩ := List.mem_filterMap.mp hp
    exact List.mem_of_find?_eq_some hfound

/-! ## Members that are bound -/

section

variable {bad : QueryError → Prop}

theorem ofNavigation_avoids (hname : (s.embeddedName n).Avoids bad) (access : Access)
    (inner : Option EntityShape) : (ArrayShape.ofNavigation s n access inner).Avoids bad :=
  .bind hname fun _ _ => .ok _

/-- Binding a navigation goes wrong only where its declaring type is checked and where the field of
its target is looked up. -/
theorem avoids_bindNavigation {shape : EntityShape} (hname : (s.embeddedName n).Avoids bad)
    (hcheck : (shape.checkMember s n.declaringType n.name).Avoids bad) :
    (shape.bindNavigation s n).Avoids bad := by
  refine .bind hcheck fun _ _ => ?_
  split
  · exact .bind (ofNavigation_avoids hname _ _) fun _ _ => .ok _
  · exact .bind hname fun _ _ => .ok _

theorem addArray_avoids (hname : (s.embeddedName n).Avoids bad) (session : BindingSession)
    (access : Access) (inner : Option Nat) :
    (session.addArray s access n inner).Avoids bad := by
  refine .bind (ofNavigation_avoids hname _ _) fun _ _ => ?_
  split
  · exact .ok _
  · exact .ok _

/-- With memory nothing else goes wrong. -/
theorem avoids_session_bindNavigation {session : BindingSession} {number : Nat}
    (hname : (s.embeddedName n).Avoids bad)
    (hcheck : ∀ bound, session.shape? number = some bound →
      (bound.shape.checkMember s n.declaringType n.name).Avoids bad) :
    (session.bindNavigation s number n).Avoids bad := by
  unfold BindingSession.bindNavigation
  split
  · exact .ok _
  · rename_i bound hbound
    refine .bind (hcheck bound hbound) fun _ _ => ?_
    dsimp only
    cases bound.navigations.lookup (n.declaringType, n.name) with
    | some known => exact .ok _
    | none =>
      dsimp only
      split
      · exact .bind (addArray_avoids hname session _ _) fun _ _ => .ok _
      · exact .bind hname fun _ _ => .ok _

/-- Binding a property goes wrong only where its declaring type is checked. -/
theorem avoids_session_bindProperty {session : BindingSession} {number : Nat} {p : Property}
    (onClient : Bool) (hcheck : ∀ bound, session.shape? number = some bound →
      (bound.shape.checkMember s p.declaringType p.name).Avoids bad) :
    (session.bindProperty s number p onClient).Avoids bad := by
  unfold BindingSession.bindProperty
  split
  · exact .ok _
  · rename_i bound hbound
    refine .bind (hcheck bound hbound) fun _ _ => ?_
    dsimp only
    split
    · exact .ok _
    · exact .ok _

end

/-- The schema error that a type is unknown. -/
def IsUnknownType (e : QueryError) : Prop := ∃ name, e = .schema (.unknownEntityType name)

theorem exists_entityType {name : String} (h : s.contains name) :
    ∃ t, QueryError.ofSchema (s.entityType name) = .ok t := by
  obtain ⟨t, ht⟩ := Option.isSome_iff_exists.mp h
  refine ⟨t, ?_⟩
  rw [QueryError.ofSchema, Catalog.entityType, ht]
  rfl

theorem embeddedName_avoids (h : s.contains n.target) :
    (s.embeddedName n).Avoids IsUnknownType := by
  obtain ⟨target, hfound⟩ := exists_entityType h
  unfold embeddedName
  refine .bind (by rw [hfound]; exact .ok _) fun target _ => ?_
  split
  · exact .ok _
  · exact .error (by rintro ⟨_, h⟩; cases h)

theorem checkMember_avoids (s : Schema) (shape : EntityShape) (declaringType member : String) :
    (shape.checkMember s declaringType member).Avoids IsUnknownType := by
  unfold EntityShape.checkMember
  split
  · exact .ok _
  · exact .error (by rintro ⟨_, h⟩; cases h)

/-- A navigation whose target is known is bound on any shape without meeting an unknown type. -/
theorem bindNavigation_avoids (h : s.contains n.target) (shape : EntityShape) :
    (shape.bindNavigation s n).Avoids IsUnknownType :=
  avoids_bindNavigation (embeddedName_avoids h) (checkMember_avoids s shape _ _)

/-- With memory or without, no unknown type is met. -/
theorem session_bindNavigation_avoids (h : s.contains n.target) (session : BindingSession)
    (number : Nat) : (session.bindNavigation s number n).Avoids IsUnknownType :=
  avoids_session_bindNavigation (embeddedName_avoids h) fun bound _ =>
    checkMember_avoids s bound.shape _ _

/-! ## Types that are asked for -/

variable {requested : Option HostType} {wanted unknown : String}

/-- An entity type that is asked for is a type of the schema. -/
def Knows (s : Schema) (requested : Option HostType) : Prop :=
  ∀ wanted, requested = some (.entity wanted) → s.contains wanted

/-- Asking for a type that is not there fails before anything is looked up. -/
theorem lookupType_of_unknown (h : ¬ s.contains wanted) (shape : EntityShape) :
    shape.lookupType s (some (.entity wanted)) = .error (.schema (.unknownEntityType wanted)) := by
  have hmissing : s.find? wanted = none := by
    rwa [Catalog.contains, Option.not_isSome_iff_eq_none] at h
  simp only [EntityShape.lookupType, Catalog.entityType, hmissing]
  rfl

theorem lookupType_avoids (h : s.Knows requested) (shape : EntityShape) :
    (shape.lookupType s requested).Avoids IsUnknownType := by
  unfold EntityShape.lookupType
  split
  · rename_i wanted
    -- the type asked for is found, and the other errors name two types or none
    obtain ⟨t, hfound⟩ := exists_entityType (h wanted rfl)
    refine .bind (by rw [hfound]; exact .ok _) fun t _ => ?_
    split
    · exact .ok _
    · split
      · exact .ok _
      · exact .error (by rintro ⟨_, h⟩; cases h)
  · exact .ok _

theorem bindProperty_avoids (s : Schema) (shape : EntityShape) (p : Property) (onClient : Bool) :
    (shape.bindProperty s p onClient).Avoids IsUnknownType :=
  .bind (checkMember_avoids s shape _ _) fun _ _ => .ok _

theorem session_bindProperty_avoids (s : Schema) (session : BindingSession) (number : Nat)
    (p : Property) (onClient : Bool) :
    (session.bindProperty s number p onClient).Avoids IsUnknownType :=
  avoids_session_bindProperty onClient fun bound _ => checkMember_avoids s bound.shape _ _

/-- A navigation that is found is one that a type of the schema declares. -/
theorem contains_target_of_found
    (htargets : ∀ t ∈ s.types, ∀ n ∈ t.navigations, s.contains n.target)
    {typeName name : String} (h : s.findNavigation? typeName name = some n) :
    s.contains n.target := by
  obtain ⟨t, ht, hn⟩ := List.exists_of_findSome?_eq_some h
  exact htargets t (Catalog.mem_types_of_mem_chain ht) n (List.mem_of_find?_eq_some hn)

theorem bindMember_avoids (htargets : ∀ t ∈ s.types, ∀ n ∈ t.navigations, s.contains n.target)
    (h : s.Knows requested) (shape : EntityShape) (name : String) (onClient : Bool) :
    (shape.bindMember s name requested onClient).Avoids IsUnknownType := by
  refine .bind (lookupType_avoids h shape) fun typeName _ => ?_
  split
  · exact .bind (bindProperty_avoids s shape _ onClient) fun _ _ => .ok _
  · split
    · rename_i n hn
      have htarget := contains_target_of_found htargets hn
      exact .bind (bindNavigation_avoids htarget shape) fun _ _ => .ok _
    · exact .ok _

theorem session_bindMember_avoids
    (htargets : ∀ t ∈ s.types, ∀ n ∈ t.navigations, s.contains n.target) (h : s.Knows requested)
    (session : BindingSession) (number : Nat) (name : String) (onClient : Bool) :
    (session.bindMember s number name requested onClient).Avoids IsUnknownType := by
  unfold BindingSession.bindMember
  split
  · exact .ok _
  · rename_i bound _
    refine .bind (lookupType_avoids h bound.shape) fun typeName _ => ?_
    split
    · exact .bind (session_bindProperty_avoids s session number _ onClient) fun _ _ => .ok _
    · split
      · rename_i n hn
        exact session_bindNavigation_avoids (contains_target_of_found htargets hn) session number
      · exact .ok _

/-- What fails when an unknown type is asked for, and meets no unknown type otherwise, meets just
the one that is asked for. -/
theorem unknown_iff {α : Type} {x : Except QueryError α}
    (hunknown : ∀ wanted, requested = some (.entity wanted) → ¬ s.contains wanted →
      x = .error (.schema (.unknownEntityType wanted)))
    (hknown : s.Knows requested → x.Avoids IsUnknownType) :
    x = .error (.schema (.unknownEntityType unknown))
      ↔ requested = some (.entity unknown) ∧ ¬ s.contains unknown := by
  constructor
  · intro h
    by_cases hknows : s.Knows requested
    · exact absurd ⟨unknown, rfl⟩ (hknown hknows _ h)
    · obtain ⟨wanted, hwanted⟩ := not_forall.mp hknows
      obtain ⟨hrequested, hmissing⟩ := Classical.not_imp.mp hwanted
      rw [hunknown wanted hrequested hmissing] at h
      cases h
      exact ⟨hrequested, hmissing⟩
  · rintro ⟨hrequested, hmissing⟩
    exact hunknown unknown hrequested hmissing

/-- **Binding by name meets an unknown type only if that type is asked for.** -/
theorem bindMember_unknown_iff
    (htargets : ∀ t ∈ s.types, ∀ n ∈ t.navigations, s.contains n.target) (shape : EntityShape)
    (name : String) (onClient : Bool) :
    shape.bindMember s name requested onClient = .error (.schema (.unknownEntityType unknown))
      ↔ requested = some (.entity unknown) ∧ ¬ s.contains unknown := by
  refine unknown_iff ?_ fun h => bindMember_avoids htargets h shape name onClient
  rintro wanted rfl hmissing
  rw [EntityShape.bindMember, lookupType_of_unknown hmissing]
  rfl

/-- With memory it is the same. -/
theorem session_bindMember_unknown_iff
    (htargets : ∀ t ∈ s.types, ∀ n ∈ t.navigations, s.contains n.target)
    {session : BindingSession} {number : Nat} {bound : BoundShape}
    (hbound : session.shape? number = some bound) (name : String) (onClient : Bool) :
    session.bindMember s number name requested onClient
        = .error (.schema (.unknownEntityType unknown))
      ↔ requested = some (.entity unknown) ∧ ¬ s.contains unknown := by
  refine unknown_iff ?_ fun h =>
    session_bindMember_avoids htargets h session number name onClient
  rintro wanted rfl hmissing
  rw [BindingSession.bindMember, hbound]
  dsimp only
  rw [lookupType_of_unknown hmissing]
  rfl

end Schema

/-! ## Finished schemas -/

namespace Model

variable {m : Model} {naming : CollectionNaming} {s : Schema}

/-- An embedded type has no key left, whoever listed it. -/
theorem key_finished_of_isOwned {t : EntityType} (h : (m.finished naming t).isOwned) :
    (m.finished naming t).key = none :=
  ((Convention.complete_completed naming _).embedded h).1

/-- **Owners that are recorded are known.** An ownership that the author wrote down stays as it is
where no owning navigation leads to the type. -/
theorem ownership_recorded (hdeclares : m.DeclaresMembers)
    (h : m.finish (Convention.defaults naming) = .ok s) {t : EntityType} (ht : t ∈ s.types)
    {o : Ownership} (ho : t.ownership = some o) :
    (∃ n ∈ m.owning, n.target = t.name ∧ o = Convention.ownershipOf n ∧ s.contains o.owner)
      ∨ (∀ n ∈ m.owning, n.target ≠ t.name)
        ∧ ∃ written ∈ m.types, written.name = t.name ∧ written.ownership = some o := by
  rw [finish_defaults h] at ht
  obtain ⟨written, hwritten, rfl⟩ := List.mem_map.mp ht
  rw [finished_name, contains_of_finish h]
  rcases ownership_of_finished hdeclares ho with hrecorded | ⟨hnone, hkept⟩
  · exact .inl hrecorded
  · exact .inr ⟨hnone, written, hwritten, rfl, hkept⟩

/-- **Nothing that a finished schema declares is missing.** -/
theorem finish_closed (hm : m.Sorted) (h : m.finish (Convention.defaults naming) = .ok s) :
    s.Closed := by
  have htypes : ∀ t' ∈ s.types, ∃ t ∈ m.types, m.finished naming t = t' := by
    rw [finish_defaults h]
    exact fun _ => List.mem_map.mp
  refine { base := ?_, target := ?_, mapping := ?_, key := ?_, keyless := ?_ }
  · -- bases lie on chains, which end inside the schema
    intro t ht base hbase
    obtain ⟨b, hb, _⟩ := Catalog.chain_of_base (finish_eq_ok h).1
      ((finish_sorted hm h).find?_of_mem ht) hbase
    exact Option.isSome_iff_exists.mpr ⟨b, hb⟩
  · -- the other parts are what was checked after the conventions, which change no target
    intro t' ht' n hn
    obtain ⟨t, ht, rfl⟩ := htypes t' ht'
    rw [finished_navigations] at hn
    rw [contains_of_finish h]
    exact contains_target_of_finish h ht hn
  · intro t ht p hp
    rw [HostType.mapping?, (finish_valid h).isMappable ht hp]
    rfl
  · intro t ht key hkey name hname
    have hcheck := Except.forM_eq_ok_iff.mp ((finish_valid h).keys t ht) name
      (by rwa [Option.mem_def.mp hkey])
    split at hcheck
    · assumption
    · cases hcheck
  · intro t' ht' howned
    obtain ⟨t, ht, rfl⟩ := htypes t' ht'
    exact key_finished_of_isOwned howned

/-- **No name below a type is dropped**, and the names are those that the model has below it. -/
theorem derived_of_finish (hm : m.Sorted) (h : m.finish (Convention.defaults naming) = .ok s)
    {t : EntityType} (ht : t ∈ s.types) :
    (s.derived t.name).map (·.name) = t.below
      ∧ t.below = (m.descendants t.name).map (·.name) := by
  have hlinked := finish_linked h
  have hskeleton := complete_skeleton (fun _ => Convention.keepsLines_of_mem) h
  have hbelow := hlinked t ht
  refine ⟨?_, ?_⟩
  · rw [hlinked.derived_eq (finish_sorted hm h) ht, hbelow]
  · rw [hbelow, Catalog.descendants_bone hskeleton]

end Model

/-- **Finished schemas are closed.** Bases and targets are types of the schema, and so are the
owners that owning navigations record; elsewhere an ownership stays as the author of the model wrote
it. Documents can hold all properties, and only types that are not embedded have keys, of properties
that they declare. So the primary key of a type is the whole key of its root, in its order; the
derived types of a type are all that the model has; and no navigation that is bound and no entry
that is serialized meets an unknown type. A member that is bound by its name meets one only if the
type that is asked for is unknown. -/
theorem finished_schema_closed {m : Model} {naming : CollectionNaming} {s : Schema}
    (hm : m.Sorted) (hdeclares : m.DeclaresMembers)
    (h : m.finish (Convention.defaults naming) = .ok s) :
    s.Closed
      ∧ (∀ t ∈ s.types, ∀ o, t.ownership = some o →
        (∃ n ∈ m.owning, n.target = t.name ∧ o = Convention.ownershipOf n ∧ s.contains o.owner)
        ∨ (∀ n ∈ m.owning, n.target ≠ t.name)
          ∧ ∃ written ∈ m.types, written.name = t.name ∧ written.ownership = some o)
      ∧ (∀ t ∈ s.types, ∃ root, s.root? t.name = some root
        ∧ (s.keyProperties t.name).map (·.name) = root.key.getD []
        ∧ ∀ p ∈ s.keyProperties t.name, p ∈ root.properties)
      ∧ (∀ t ∈ s.types, (s.derived t.name).map (·.name) = t.below
        ∧ t.below = (m.descendants t.name).map (·.name))
      ∧ (∀ t ∈ s.types, ∀ n ∈ t.navigations, ∀ unknown,
        (∀ shape : EntityShape,
          shape.bindNavigation s n ≠ .error (.schema (.unknownEntityType unknown)))
        ∧ ∀ (session : BindingSession) (number : Nat),
          session.bindNavigation s number n ≠ .error (.schema (.unknownEntityType unknown)))
      ∧ (∀ (name : String) (requested : Option HostType) (onClient : Bool) (unknown : String),
        (∀ shape : EntityShape,
          shape.bindMember s name requested onClient = .error (.schema (.unknownEntityType unknown))
            ↔ requested = some (.entity unknown) ∧ ¬ s.contains unknown)
        ∧ ∀ (session : BindingSession) (number : Nat) (bound : BoundShape),
          session.shape? number = some bound →
          (session.bindMember s number name requested onClient
              = .error (.schema (.unknownEntityType unknown))
            ↔ requested = some (.entity unknown) ∧ ¬ s.contains unknown))
      ∧ ∀ (changes : ChangeSet) (id : Nat) (e : Entry), changes.entry? id = some e →
        ∃ document, changes.compose s id = .ok document := by
  have hclosed := Model.finish_closed hm h
  refine ⟨hclosed, fun t ht o => Model.ownership_recorded hdeclares h ht, ?_,
    fun t => Model.derived_of_finish hm h, ?_, ?_, ?_⟩
  · intro t ht
    have hfound := (Model.finish_sorted hm h).find?_of_mem ht
    obtain ⟨root, hroot⟩ := (Model.finish_eq_ok h).1.exists_root hfound
    exact ⟨root, hroot, hclosed.keyProperties_eq hroot⟩
  · -- all that binding looks up is the target
    intro t ht n hn unknown
    have htarget := hclosed.target t ht n hn
    exact ⟨fun shape hfails => Schema.bindNavigation_avoids htarget shape _ hfails ⟨_, rfl⟩,
      fun session number hfails =>
        Schema.session_bindNavigation_avoids htarget session number _ hfails ⟨_, rfl⟩⟩
  · intro name requested onClient unknown
    exact ⟨fun shape => Schema.bindMember_unknown_iff hclosed.target shape name onClient,
      fun session number bound hbound =>
        Schema.session_bindMember_unknown_iff hclosed.target hbound name onClient⟩
  · intro changes id e he
    exact ⟨_, ChangeSet.compose_eq_documentOf (Model.finish_ownsTargets h).knowsTargets he⟩

/-- The owner of lines is recorded and known, the primary key of orders is the key that was
discovered, and lines are bound without meeting an unknown type, also where they are asked for as
lines. -/
theorem finished_schema_closed_orders :
    orderModel.Sorted ∧ orderModel.DeclaresMembers
      ∧ orderModel.finish (Convention.defaults .typeName) = .ok orders
      ∧ orders.contains "Order"
      ∧ (orders.keyProperties "Order").map (·.name) = ["Id"]
      ∧ ∀ (shape : EntityShape) (unknown : String),
        shape.bindNavigation orders ⟨"Lines", "Order", "Line", true, true⟩
            ≠ .error (.schema (.unknownEntityType unknown))
          ∧ shape.bindMember orders "Lines" (some (.entity "Line")) false
            ≠ .error (.schema (.unknownEntityType unknown)) := by
  have hm : orderModel.Sorted := by decide
  have hdeclares : orderModel.DeclaresMembers := by decide
  have h : orderModel.finish (Convention.defaults .typeName) = .ok orders := rfl
  obtain ⟨_, howners, hkeys, _, hbound, hnamed, _⟩ := finished_schema_closed hm hdeclares h
  have hline : orders.types.get ⟨0, by decide⟩ ∈ orders.types := List.get_mem _ _
  have horder : orders.types.get ⟨1, by decide⟩ ∈ orders.types := List.get_mem _ _
  refine ⟨hm, hdeclares, h, ?_, ?_, ?_⟩
  · -- lines are owned by a navigation of the model, so the first case holds
    rcases howners _ hline _ rfl with ⟨_, _, _, _, hknown⟩ | ⟨hnone, _⟩
    · exact hknown
    · exact absurd rfl (hnone ⟨"Lines", "Order", "Line", true, true⟩ (by decide))
  · obtain ⟨root, hroot, hkey, _⟩ := hkeys _ horder
    cases hroot
    exact hkey
  · intro shape unknown
    refine ⟨(hbound _ horder _ (List.mem_singleton.mpr rfl) unknown).1 shape, ?_⟩
    intro hfails
    obtain ⟨hrequested, hmissing⟩ :=
      ((hnamed "Lines" (some (.entity "Line")) false unknown).1 shape).mp hfails
    cases hrequested
    exact hmissing rfl

/-- Albums own their photos. Stamps belong to books, as their author says, but there are none. -/
def albumModel : Model where
  types := [
    { name := "Album", navigations := [⟨"Photos", "Album", "Photo", true, true⟩] },
    { name := "Photo" },
    { name := "Stamp", isOwned := true, ownership := some ⟨"Book", "Stamps", true⟩ }]

/-- The schema of albums. -/
def albums : Schema where
  types := [
    { name := "Album", isComplex := true, collection := some "Album"
      discriminatorValue := some "Album"
      navigations := [⟨"Photos", "Album", "Photo", true, true⟩] },
    { name := "Photo", isOwned := true, isComplex := true, discriminatorValue := some "Photo"
      ownership := some ⟨"Album", "Photos", true⟩ },
    { name := "Stamp", isOwned := true, isComplex := true, discriminatorValue := some "Stamp"
      ownership := some ⟨"Book", "Stamps", true⟩ }]
  discriminatorElement := "_t"

/-- The owner of stamps is no type of the schema. And photos that are asked for as pictures meet an
unknown type, though the navigation to them is declared. -/
theorem books_and_pictures_unknown :
    albumModel.finish (Convention.defaults .typeName) = .ok albums
      ∧ (∃ t ∈ albums.types, ∃ o, t.ownership = some o ∧ ¬ albums.contains o.owner)
      ∧ (∃ t ∈ albums.types, ∃ n ∈ t.navigations,
        (EntityShape.root t.name "c").bindMember albums n.name (some (.entity "Picture")) false
          = .error (.schema (.unknownEntityType "Picture"))) := by
  refine ⟨rfl, ?_, ?_⟩
  · exact ⟨albums.types.get ⟨2, by decide⟩, List.get_mem _ _, ⟨"Book", "Stamps", true⟩, rfl,
      by decide⟩
  · exact ⟨albums.types.get ⟨0, by decide⟩, List.get_mem _ _,
      ⟨"Photos", "Album", "Photo", true, true⟩, List.mem_singleton.mpr rfl, rfl⟩

end Odm
