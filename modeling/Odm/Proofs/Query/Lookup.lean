import Odm.Proofs.Query.Route
import Odm.Proofs.Schema.Closed
import Odm.Proofs.Schema.Lineage

/-!
# Where a member is looked up

A member is looked up by its name on one type: among the properties of the type and its bases, and
after them among the navigations. Which type that is depends on the type that is asked for. One
that the shape's type derives from changes nothing. One that derives from the shape's type is
itself where members are looked up: it is taken as the first derived type that is assignable to
what is asked for, and nothing that derives from it comes before it, since nearer types come first.

What is found always belongs to the shape. It is declared on a base of the type it was looked up
on, the shape's type is another such base or that type itself, and the bases of a type are in a
line. So the check of the declaring type never fails. All this is the same for a session, which
remembers what was bound before.
-/

namespace Odm

/-! ## Members by name -/

namespace Member

def name : Member → String
  | .property p => p.name
  | .navigation n => n.name

def declaringType : Member → String
  | .property p => p.declaringType
  | .navigation n => n.declaringType

end Member

/-- The member of that name of a type, declared or inherited. A property comes before a
navigation. -/
def Schema.member? (s : Schema) (typeName name : String) : Option Member :=
  (s.findProperty? typeName name).map .property
    <|> (s.findNavigation? typeName name).map .navigation

/-- What a member stands for in the object of a shape, if a member was found. -/
def EntityShape.bindFound (s : Schema) (shape : EntityShape) (onClient : Bool) :
    Option Member → Except QueryError (Option Node)
  | none => .ok none
  | some (.property p) => do
    return (← shape.bindProperty s p onClient).map fun f => .scalar (.field f)
  | some (.navigation n) => do return some (← shape.bindNavigation s n)

/-- What a member stands for in the object of a shape of a session, if a member was found. -/
def BindingSession.bindFound (s : Schema) (session : BindingSession) (number : Nat)
    (onClient : Bool) : Option Member → Except QueryError (Option Bound × BindingSession)
  | none => .ok (none, session)
  | some (.property p) => do
    let (f, session) ← session.bindProperty s number p onClient
    return (f.map Bound.field, session)
  | some (.navigation n) => session.bindNavigation s number n

namespace Schema

variable {s : Schema} {typeName name : String} {member : Member}

theorem member?_of_property {p : Property} (h : s.findProperty? typeName name = some p) :
    s.member? typeName name = some (.property p) := by
  rw [member?, h]
  rfl

theorem member?_of_no_property (h : s.findProperty? typeName name = none) :
    s.member? typeName name = (s.findNavigation? typeName name).map .navigation := by
  rw [member?, h]
  rfl

/-- A member is declared on a type of the chain on which it was looked up, and found by its
name. -/
theorem exists_of_member? (hdeclares : s.DeclaresMembers)
    (h : s.member? typeName name = some member) :
    ∃ t ∈ s.chain typeName, member.declaringType = t.name ∧ member.name = name := by
  cases hp : s.findProperty? typeName name with
  | some p =>
    rw [member?_of_property hp] at h
    cases h
    obtain ⟨t, ht, hmem, hname⟩ := Catalog.findProperty?_eq_some hp
    have htypes := Catalog.mem_types_of_mem_chain ht
    exact ⟨t, ht, (hdeclares t htypes).properties p hmem, hname⟩
  | none =>
    rw [member?_of_no_property hp] at h
    obtain ⟨n, hn, rfl⟩ := Option.map_eq_some_iff.mp h
    obtain ⟨t, ht, hmem, hname⟩ := Catalog.findNavigation?_eq_some hn
    have htypes := Catalog.mem_types_of_mem_chain ht
    exact ⟨t, ht, (hdeclares t htypes).navigations n hmem, hname⟩

end Schema

/-! ## Looking up and binding -/

/-- A member is bound, with memory or without, as the member of its name found on the type that
`lookup` gives, and not at all where that is an error. -/
structure EntityShape.LooksUp (s : Schema) (shape : EntityShape) (name : String)
    (requested : Option HostType) (onClient : Bool) (lookup : Except QueryError String) :
    Prop where
  plain : shape.bindMember s name requested onClient
    = lookup >>= fun typeName => shape.bindFound s onClient (s.member? typeName name)
  remembered : ∀ (session : BindingSession) (number : Nat) (bound : BoundShape),
    session.shape? number = some bound → bound.shape = shape →
    session.bindMember s number name requested onClient
      = lookup >>= fun typeName => session.bindFound s number onClient (s.member? typeName name)

/-- Members are bound as they are found on the type that lookups choose. -/
theorem EntityShape.looksUp_lookupType (s : Schema) (shape : EntityShape) (name : String)
    (requested : Option HostType) (onClient : Bool) :
    shape.LooksUp s name requested onClient (shape.lookupType s requested) where
  plain := by
    -- a property hides a navigation of its name, in both orders of looking them up
    unfold bindMember
    refine bind_congr fun typeName => ?_
    cases hp : s.findProperty? typeName name with
    | some p =>
      rw [Schema.member?_of_property hp]
      rfl
    | none =>
      rw [Schema.member?_of_no_property hp]
      cases s.findNavigation? typeName name with
      | some n => rfl
      | none => rfl
  remembered := by
    rintro session number bound hbound rfl
    unfold BindingSession.bindMember
    rw [hbound]
    refine bind_congr fun typeName => ?_
    cases hp : s.findProperty? typeName name with
    | some p =>
      rw [Schema.member?_of_property hp]
      rfl
    | none =>
      rw [Schema.member?_of_no_property hp]
      cases s.findNavigation? typeName name with
      | some n => rfl
      | none => rfl

/-! ## The type that is asked for -/

namespace Catalog

variable {c : Catalog} {t u v : EntityType} {name : String}

/-- Derived types derive from a type of the catalog. -/
theorem exists_of_mem_derived (hs : c.Sorted) (hc : c.Rooted) (hl : c.Linked)
    (hu : u ∈ c.derived name) : ∃ t, c.find? name = some t ∧ c.DerivesFrom t u := by
  cases hf : c.find? name with
  | none => rw [derived, hf] at hu; cases hu
  | some t =>
    rw [← find?_name hf] at hu
    exact ⟨t, rfl, (mem_cons_derived_iff hs hc hl (find?_mem hf)).mp (List.mem_cons_of_mem _ hu)⟩

/-- **The nearest derived type that is assignable to a derived type is that type itself.** -/
theorem find?_derived (hs : c.Sorted) (hc : c.Rooted) (hl : c.Linked) (h : c.DerivesFrom t u)
    (hne : u ≠ t) :
    (c.derived t.name).find? (fun v => c.isAssignable u.name v.name) = some u := by
  have hu : u ∈ c.descendants t.name := (mem_descendants_iff hs hc h.mem_left).mpr ⟨hne, h⟩
  obtain ⟨nearer, further, hsplit⟩ := List.append_of_mem hu
  have hself := (isAssignable_iff hs hc h.mem h.mem).mpr (.self h.mem)
  rw [hl.derived_eq hs h.mem_left]
  refine List.find?_eq_some_iff_append.mpr ⟨hself, nearer, further, hsplit, ?_⟩
  intro v hv
  have horder : (c.descendants t.name).Pairwise fun u v =>
      (c.chain u.name).length ≤ (c.chain v.name).length :=
    (isLevel_children hs hc h.mem_left).pairwise_descend hs hc
  have hnodup := nodup_descendants hs hc h.mem_left
  rw [hsplit] at horder hnodup
  have hle := (List.pairwise_append.mp horder).2.2 v hv u List.mem_cons_self
  have hvu : v ≠ u := (List.nodup_append.mp hnodup).2.2 v hv u List.mem_cons_self
  have hmem : v ∈ c.types := by
    refine ((mem_descendants_iff hs hc h.mem_left).mp ?_).2.mem
    rw [hsplit]
    exact List.mem_append_left _ hv
  -- what derives from `u` has a longer chain, and so does not come before it
  rw [Bool.not_eq_true', Bool.eq_false_iff, ne_eq, isAssignable_iff hs hc h.mem hmem]
  intro hderives
  have hlt := hderives.length_lt hs hc hvu
  omega

end Catalog

namespace EntityShape

variable {s : Schema} {shape : EntityShape} {r : EntityType}

theorem lookupType_entity (hs : s.Sorted) (hr : r ∈ s.types) :
    shape.lookupType s (some (.entity r.name))
      = if s.isAssignable r.name shape.entityType then .ok shape.entityType
        else match (s.derived shape.entityType).find? fun t => s.isAssignable r.name t.name with
          | some t => .ok t.name
          | none => .error (.unrelatedEntityType shape.entityType r.name) := by
  have hfound : QueryError.ofSchema (s.entityType r.name) = .ok r := by
    rw [QueryError.ofSchema, Catalog.entityType, hs.find?_of_mem hr]
    rfl
  simp only [lookupType, hfound]
  rfl

/-- A base of the shape's type, or that type itself, asks for nothing. -/
theorem lookupType_of_base (hs : s.Sorted) (hr : r ∈ s.types)
    (h : s.isAssignable r.name shape.entityType) :
    shape.lookupType s (some (.entity r.name)) = .ok shape.entityType := by
  rw [lookupType_entity hs hr, if_pos h]

/-- **A derived type is asked for itself.** -/
theorem lookupType_of_derived (hs : s.Sorted) (hc : s.Rooted) (hl : s.Linked) (hr : r ∈ s.types)
    (h : s.isAssignable shape.entityType r.name) (hne : r.name ≠ shape.entityType) :
    shape.lookupType s (some (.entity r.name)) = .ok r.name := by
  obtain ⟨t, ht, hderives⟩ := Catalog.exists_of_isAssignable hs hc hr h
  have hname := Catalog.find?_name ht
  rw [← hname] at hne
  have hrt : r ≠ t := fun heq => hne (congrArg EntityType.name heq)
  have hbase : ¬ s.isAssignable r.name t.name := by
    rw [Catalog.isAssignable_iff hs hc hr hderives.mem_left]
    exact fun hback => hrt (hback.antisymm hs hc hderives)
  rw [lookupType_entity hs hr, ← hname, if_neg hbase, Catalog.find?_derived hs hc hl hderives hrt]

/-- A type that is not related to the shape's is refused. -/
theorem lookupType_of_unrelated (hs : s.Sorted) (hc : s.Rooted) (hl : s.Linked)
    (hr : r ∈ s.types)
    (h : ¬ s.areRelated shape.entityType r.name) :
    shape.lookupType s (some (.entity r.name))
      = .error (.unrelatedEntityType shape.entityType r.name) := by
  rw [Catalog.areRelated, Bool.or_eq_true, not_or] at h
  obtain ⟨hderived, hbase⟩ := h
  have hnone : (s.derived shape.entityType).find? (fun t => s.isAssignable r.name t.name)
      = none := by
    refine List.find?_eq_none.mpr ?_
    intro u hu hassignable
    obtain ⟨t, ht, htu⟩ := Catalog.exists_of_mem_derived hs hc hl hu
    have hru := (Catalog.isAssignable_iff hs hc hr htu.mem).mp hassignable
    rw [← Catalog.find?_name ht] at hderived hbase
    -- both are bases of `u`, and so one of the other
    rcases htu.comparable hs hru with htr | hrt
    · exact hderived ((Catalog.isAssignable_iff hs hc htu.mem_left hr).mpr htr)
    · exact hbase ((Catalog.isAssignable_iff hs hc hr htu.mem_left).mpr hrt)
  rw [lookupType_entity hs hr, if_neg hbase, hnone]

/-- Members are looked up on the shape's type or on one that derives from it. -/
theorem lookupType_eq_ok (hs : s.Sorted) (hc : s.Rooted) (hl : s.Linked)
    {requested : Option HostType} {typeName : String}
    (h : shape.lookupType s requested = .ok typeName) :
    typeName = shape.entityType
      ∨ ∃ t u, s.find? shape.entityType = some t ∧ s.DerivesFrom t u ∧ u.name = typeName := by
  unfold lookupType at h
  split at h
  · obtain ⟨wanted, _, h⟩ := Except.bind_eq_ok_iff.mp h
    split at h
    · exact .inl (Except.pure_eq_ok_iff.mp h).symm
    · split at h
      · rename_i u hu
        obtain ⟨t, ht, hderives⟩ :=
          Catalog.exists_of_mem_derived hs hc hl (List.mem_of_find?_eq_some hu)
        exact .inr ⟨t, u, ht, hderives, Except.pure_eq_ok_iff.mp h⟩
      · cases h
  · cases h
    exact .inl rfl

/-! ## What is found belongs to the shape -/

/-- **The check of the declaring type passes for every member that is found.** -/
theorem checkMember_of_found (hs : s.Sorted) (hc : s.Rooted) (hl : s.Linked)
    (hdeclares : s.DeclaresMembers) {requested : Option HostType} {typeName name : String}
    {member : Member}
    (htype : shape.lookupType s requested = .ok typeName)
    (hmember : s.member? typeName name = some member) :
    shape.checkMember s member.declaringType member.name = .ok () := by
  obtain ⟨d, hd, hdeclaring, _⟩ := Schema.exists_of_member? hdeclares hmember
  rw [hdeclaring]
  -- members are looked up on the shape's own type or on one that derives from it
  rcases lookupType_eq_ok hs hc hl htype with rfl | ⟨t, u, ht, htu, rfl⟩
  · exact checkMember_eq_ok hd
  · -- the declaring type and the shape's are both bases of the one the member was looked up on
    have hdu := (Catalog.mem_chain_iff hs hc htu.mem).mp hd
    have hcontains : s.contains d.name := by
      rw [Catalog.contains, hs.find?_of_mem hdu.mem_left]
      rfl
    have hrelated : s.areRelated shape.entityType d.name := by
      rw [← Catalog.find?_name ht, Catalog.areRelated, Bool.or_eq_true,
        Catalog.isAssignable_iff hs hc htu.mem_left hdu.mem_left,
        Catalog.isAssignable_iff hs hc hdu.mem_left htu.mem_left]
      exact htu.comparable hs hdu
    rw [checkMember, if_pos]
    rw [hcontains, hrelated]
    rfl

end EntityShape

/-- The error that a member is declared outside the line of the shape's type. -/
def IsUnrelatedMember (e : QueryError) : Prop :=
  ∃ entityType member, e = .unrelatedMember entityType member

namespace EntityShape

variable {s : Schema} {shape : EntityShape} {found : Option Member}

theorem embeddedName_avoids_unrelated (s : Schema) (n : Navigation) :
    (s.embeddedName n).Avoids IsUnrelatedMember := by
  refine .bind (.mapError ?_) fun target _ => ?_
  · rintro e _ ⟨_, _, h⟩
    cases h
  · split
    · exact .ok _
    · exact .error (by rintro ⟨_, _, h⟩; cases h)

theorem lookupType_avoids_unrelated (s : Schema) (shape : EntityShape)
    (requested : Option HostType) :
    (shape.lookupType s requested).Avoids IsUnrelatedMember := by
  unfold lookupType
  split
  · refine .bind (.mapError ?_) fun wanted _ => ?_
    · rintro e _ ⟨_, _, h⟩
      cases h
    · split
      · exact .ok _
      · split
        · exact .ok _
        · exact .error (by rintro ⟨_, _, h⟩; cases h)
  · exact .ok _

/-- A member that belongs to the shape is bound without being found unrelated. -/
theorem bindFound_avoids_unrelated (onClient : Bool)
    (hcheck : ∀ member ∈ found,
      shape.checkMember s member.declaringType member.name = .ok ()) :
    (shape.bindFound s onClient found).Avoids IsUnrelatedMember := by
  cases found with
  | none => exact .ok none
  | some member =>
    have hok : (shape.checkMember s member.declaringType member.name).Avoids
        IsUnrelatedMember := by
      rw [hcheck member rfl]
      exact .ok ()
    cases member with
    | property p => exact .bind (.bind hok fun _ _ => .ok _) fun _ _ => .ok _
    | navigation n =>
      exact .bind (Schema.avoids_bindNavigation (embeddedName_avoids_unrelated s n) hok)
        fun _ _ => .ok _

/-- The same in a session. -/
theorem session_bindFound_avoids_unrelated (onClient : Bool) {session : BindingSession}
    {number : Nat} (hcheck : ∀ member ∈ found, ∀ bound, session.shape? number = some bound →
      bound.shape.checkMember s member.declaringType member.name = .ok ()) :
    (session.bindFound s number onClient found).Avoids IsUnrelatedMember := by
  cases found with
  | none => exact .ok _
  | some member =>
    -- the only step that could report the error is the check, and that one passes
    have hok : ∀ bound, session.shape? number = some bound →
        (bound.shape.checkMember s member.declaringType member.name).Avoids
          IsUnrelatedMember := by
      intro bound hbound
      rw [hcheck member rfl bound hbound]
      exact .ok ()
    cases member with
    | property p =>
      exact .bind (Schema.avoids_session_bindProperty onClient hok) fun _ _ => .ok _
    | navigation n =>
      exact Schema.avoids_session_bindNavigation (embeddedName_avoids_unrelated s n) hok

end EntityShape

/-! ## Finished schemas -/

/-- **Members are looked up on just the type that is asked for**, with memory or without, if it
derives from the shape's type; on the shape's type if that derives from what is asked for or is
it; and if neither derives from the other, a member is refused because the types are unrelated. No
member that is found is ever refused because it is declared on an unrelated type: the check of its
declaring type passes. The schema is one that conventions of this library finished. -/
theorem member_lookup_narrows {m : Model} {conventions : List Convention} {s : Schema}
    (hm : m.Sorted) (hdeclares : m.DeclaresMembers) (h : m.finish conventions = .ok s)
    (shape : EntityShape) (name : String) (onClient : Bool) :
    (∀ r ∈ s.types,
      (s.isAssignable r.name shape.entityType →
        shape.LooksUp s name (some (.entity r.name)) onClient (.ok shape.entityType))
      ∧ (s.isAssignable shape.entityType r.name → r.name ≠ shape.entityType →
        shape.LooksUp s name (some (.entity r.name)) onClient (.ok r.name))
      ∧ (¬ s.areRelated shape.entityType r.name →
        shape.LooksUp s name (some (.entity r.name)) onClient
          (.error (.unrelatedEntityType shape.entityType r.name))))
    ∧ (∀ requested typeName member, shape.lookupType s requested = .ok typeName →
      s.member? typeName name = some member →
      shape.checkMember s member.declaringType member.name = .ok ())
    ∧ ∀ requested entityType member,
      shape.bindMember s name requested onClient ≠ .error (.unrelatedMember entityType member)
      ∧ ∀ (session : BindingSession) (number : Nat) (bound : BoundShape),
        session.shape? number = some bound → bound.shape = shape →
        session.bindMember s number name requested onClient
          ≠ .error (.unrelatedMember entityType member) := by
  have hs : s.Sorted := Model.finish_sorted hm h
  have hc : s.Rooted := (Model.finish_eq_ok h).1
  have hl : s.Linked := Model.finish_linked h
  have hmembers : s.DeclaresMembers := Model.finish_declaresMembers h hdeclares
  have hlooksUp := fun requested => shape.looksUp_lookupType s name requested onClient
  refine ⟨?_, ?_, ?_⟩
  · -- the type is the shape's own or a base of it, or it derives from it, or is unrelated
    intro r hr
    refine ⟨?_, ?_, ?_⟩
    · intro hbase
      rw [← EntityShape.lookupType_of_base hs hr hbase]
      exact hlooksUp _
    · intro hderived hne
      rw [← EntityShape.lookupType_of_derived hs hc hl hr hderived hne]
      exact hlooksUp _
    · intro hunrelated
      rw [← EntityShape.lookupType_of_unrelated hs hc hl hr hunrelated]
      exact hlooksUp _
  · intro requested typeName member htype hmember
    exact EntityShape.checkMember_of_found hs hc hl hmembers htype hmember
  · intro requested entityType member
    -- whatever is looked up, the check of what is found passes
    have hcheck : ∀ typeName, shape.lookupType s requested = .ok typeName →
        ∀ found ∈ s.member? typeName name,
          shape.checkMember s found.declaringType found.name = .ok () :=
      fun typeName htype found hfound =>
        EntityShape.checkMember_of_found hs hc hl hmembers htype hfound
    have htype := EntityShape.lookupType_avoids_unrelated s shape requested
    refine ⟨?_, ?_⟩
    · rw [(hlooksUp requested).plain]
      intro herror
      refine Except.Avoids.bind htype (fun typeName hok => ?_) _ herror ⟨_, _, rfl⟩
      exact EntityShape.bindFound_avoids_unrelated onClient (hcheck typeName hok)
    · rintro session number bound hbound rfl
      rw [(hlooksUp requested).remembered session number bound hbound rfl]
      intro herror
      refine Except.Avoids.bind htype (fun typeName hok => ?_) _ herror ⟨_, _, rfl⟩
      refine EntityShape.session_bindFound_avoids_unrelated onClient ?_
      intro found hfound bound' hbound'
      cases hbound.symm.trans hbound'
      exact hcheck typeName hok found hfound

/-- Animals of which some are mammals, and of these some are cats and dogs. Dogs have their names
on a tag. -/
def speciesModel : Model where
  types := [
    { name := "Animal"
      properties := [⟨"Id", "Animal", .int32, none, false, false, none⟩,
        ⟨"Name", "Animal", .string, none, false, false, none⟩] },
    { name := "Cat", base := some "Mammal" },
    { name := "Dog", base := some "Mammal"
      properties := [⟨"Bark", "Dog", .string, none, false, false, none⟩,
        ⟨"Name", "Dog", .string, some "tag", false, false, none⟩] },
    { name := "Mammal", base := some "Animal" }]

/-- The name on a dog's tag. -/
def dogName : Property := ⟨"Name", "Dog", .string, some "tag", false, false, none⟩

/-- The finished schema of species. -/
def species : Schema where
  types := [
    { name := "Animal"
      collection := some "Animal"
      discriminatorValue := some "Animal"
      key := some ["Id"]
      properties := [⟨"Id", "Animal", .int32, some "_id", false, false, some .onAdd⟩,
        ⟨"Name", "Animal", .string, none, false, false, none⟩]
      below := ["Mammal", "Cat", "Dog"] },
    { name := "Cat", base := some "Mammal", discriminatorValue := some "Cat" },
    { name := "Dog", base := some "Mammal", discriminatorValue := some "Dog"
      properties := [⟨"Bark", "Dog", .string, none, false, false, none⟩, dogName] },
    { name := "Mammal", base := some "Animal", discriminatorValue := some "Mammal"
      below := ["Cat", "Dog"] }]
  discriminatorElement := "_t"

theorem finish_speciesModel :
    speciesModel.finish (Convention.defaults .typeName) = .ok species := rfl

/-- Of animals as dogs the name is that on the tag, and of dogs as animals it is so too. Cats have
no names as dogs. -/
theorem member_lookup_narrows_dogs :
    speciesModel.Sorted ∧ speciesModel.DeclaresMembers
      ∧ speciesModel.finish (Convention.defaults .typeName) = .ok species
      ∧ (∀ access, EntityShape.bindMember species ⟨"Animal", access⟩ "Name" (some (.entity "Dog"))
          false = .ok (some (.scalar (.field (.ofProperty dogName access)))))
      ∧ (∀ access, EntityShape.bindMember species ⟨"Dog", access⟩ "Name" (some (.entity "Animal"))
          false = .ok (some (.scalar (.field (.ofProperty dogName access)))))
      ∧ ∀ access, EntityShape.bindMember species ⟨"Cat", access⟩ "Name" (some (.entity "Dog"))
          false = .error (.unrelatedEntityType "Cat" "Dog") := by
  have hm : speciesModel.Sorted := by decide
  have hdeclares : speciesModel.DeclaresMembers := by decide
  have hbinds := fun typeName access => (member_lookup_narrows hm hdeclares finish_speciesModel
    ⟨typeName, access⟩ "Name" false).1
  -- dogs are asked for as animals, animals as dogs, and cats as dogs
  have hanimal : species.types.get ⟨0, by decide⟩ ∈ species.types := List.get_mem _ _
  have hdog : species.types.get ⟨2, by decide⟩ ∈ species.types := List.get_mem _ _
  have hderived : species.isAssignable "Animal" "Dog" := by decide
  have hne : "Dog" ≠ "Animal" := by decide
  have hunrelated : ¬ species.areRelated "Cat" "Dog" := by decide
  refine ⟨hm, hdeclares, finish_speciesModel, ?_, ?_, ?_⟩
  · intro access
    exact ((hbinds "Animal" access _ hdog).2.1 hderived hne).plain
  · intro access
    exact ((hbinds "Dog" access _ hanimal).1 hderived).plain
  · intro access
    exact ((hbinds "Cat" access _ hdog).2.2 hunrelated).plain

end Odm
