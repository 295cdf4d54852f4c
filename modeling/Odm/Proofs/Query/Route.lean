import Odm.Proofs.Query.Verification
import Odm.Proofs.Update.Element
import Odm.Proofs.Update.Placement

/-!
# Queries read where saves write

A route leads from a type through owned references to the types that they embed. Along a route
members are bound to objects inside objects, and the path of a field at its end lists the fields
that contain them. Composition goes the same way over entries: each navigation of the route leads
to the first entry that it matches, and the document of that entry is put under the field that
contains it. Neither side knows of the other. They agree because both ask the target of a
navigation by which name it is contained, and a target that was found to be owned has one.
-/

namespace Odm

/-! ## Routes -/

/-- A route of owned references from one type to another. -/
inductive Schema.Route (s : Schema) : String → List Navigation → String → Prop where
  | here {name : String} : Route s name [] name
  | through {name last : String} {n : Navigation} {ns : List Navigation} :
    s.findNavigation? name n.name = some n → s.findProperty? name n.name = none →
    n.isOwnership → n.isCollection = false → Route s n.target ns last →
    Route s name (n :: ns) last

/-- Member after member of an expression, each with the type that the host gives it. -/
def HostExpr.nested (source : HostExpr) (members : List (String × HostType)) : HostExpr :=
  members.foldl (fun e member => .member e member.1 member.2) source

theorem HostExpr.nested_concat (source : HostExpr) (members : List (String × HostType))
    (name : String) (type : HostType) :
    source.nested (members ++ [(name, type)]) = .member (source.nested members) name type := by
  rw [nested, nested, List.foldl_append]
  rfl

namespace Catalog

variable {c : Catalog}

/-- Targets of owning navigations have a name by which they are contained. -/
theorem OwnsTargets.embeddedName? (hc : c.OwnsTargets) {name : String} {n : Navigation}
    (hn : n ∈ c.navigations name) (hown : n.isOwnership) :
    ∃ target field, c.find? n.target = some target ∧ target.embeddedName? = some field := by
  obtain ⟨t, ht, hn⟩ := List.mem_flatMap.mp hn
  have htype := find?_of_mem_climb (List.mem_reverse.mp ht)
  obtain ⟨target, htarget, howned⟩ := hc t (find?_mem htype) n hn hown
  obtain ⟨ownership, hownership⟩ := Option.isSome_iff_exists.mp howned
  refine ⟨target, ?_⟩
  unfold EntityType.embeddedName?
  rw [hownership]
  cases target.containingName with
  | none => exact ⟨_, htarget, rfl⟩
  | some field => exact ⟨_, htarget, rfl⟩

theorem mem_navigations_of_findNavigation? {typeName name : String} {n : Navigation}
    (h : c.findNavigation? typeName name = some n) : n ∈ c.navigations typeName := by
  obtain ⟨t, ht, hn, _⟩ := findNavigation?_eq_some h
  exact List.mem_flatMap.mpr ⟨t, List.mem_reverse.mpr ht, hn⟩

theorem mem_properties_of_findProperty? {typeName name : String} {p : Property}
    (h : c.findProperty? typeName name = some p) : p ∈ c.properties typeName := by
  obtain ⟨t, ht, hp, _⟩ := findProperty?_eq_some h
  exact List.mem_flatMap.mpr ⟨t, List.mem_reverse.mpr ht, hp⟩

/-- A derived type inherits all members. -/
theorem chain_subset (hs : c.Sorted) (hc : c.Rooted) {t u : EntityType}
    (h : c.DerivesFrom t u) : c.chain t.name ⊆ c.chain u.name := by
  intro v hv
  exact (mem_chain_iff hs hc h.mem).mpr (((mem_chain_iff hs hc h.mem_left).mp hv).trans h)

theorem navigations_subset (hs : c.Sorted) (hc : c.Rooted) {t u : EntityType}
    (h : c.DerivesFrom t u) : c.navigations t.name ⊆ c.navigations u.name := by
  intro n hn
  obtain ⟨v, hv, hn⟩ := List.mem_flatMap.mp hn
  have hmem := chain_subset hs hc h (List.mem_reverse.mp hv)
  exact List.mem_flatMap.mpr ⟨v, List.mem_reverse.mpr hmem, hn⟩

theorem properties_subset (hs : c.Sorted) (hc : c.Rooted) {t u : EntityType}
    (h : c.DerivesFrom t u) : c.properties t.name ⊆ c.properties u.name := by
  intro p hp
  obtain ⟨v, hv, hp⟩ := List.mem_flatMap.mp hp
  have hmem := chain_subset hs hc h (List.mem_reverse.mp hv)
  exact List.mem_flatMap.mpr ⟨v, List.mem_reverse.mpr hmem, hp⟩

end Catalog

/-- Each target along a route has a name that contains it. -/
theorem Schema.Route.containingName?_eq {s : Schema} (hs : s.OwnsTargets) {name last : String}
    {ns : List Navigation} (h : s.Route name ns last) :
    ∀ n ∈ ns, s.containingName? n = some (s.elementOf n) := by
  induction h with
  | here => exact fun _ hn => absurd hn List.not_mem_nil
  | through hn _ hown _ _ ih =>
    refine List.forall_mem_cons.mpr ⟨?_, ih⟩
    obtain ⟨target, field, htarget, hfield⟩ :=
      hs.embeddedName? (Catalog.mem_navigations_of_findNavigation? hn) hown
    rw [elementOf, containingName?, htarget, Option.bind_some, hfield, Option.getD_some]

/-! ## Binding along a route -/

namespace EntityShape

variable {s : Schema} {shape : EntityShape}

/-- Members that are found on the type of a shape belong to it. -/
theorem checkMember_eq_ok {t : EntityType} {member : String}
    (ht : t ∈ s.chain shape.entityType) : shape.checkMember s t.name member = .ok () := by
  have hcontains : s.contains t.name := by
    rw [Catalog.contains, Catalog.find?_of_mem_climb ht]
    rfl
  have hassignable : s.isAssignable t.name shape.entityType :=
    List.any_eq_true.mpr ⟨t, ht, decide_eq_true rfl⟩
  rw [checkMember, if_pos]
  rw [hcontains, Catalog.areRelated, hassignable, Bool.or_true]
  rfl

/-- Without conversions a member is looked up on the type of the shape itself. -/
theorem lookupType_self (hs : s.Sorted) (hc : s.Rooted) {t : EntityType}
    (ht : s.find? shape.entityType = some t) :
    shape.lookupType s (some shape.type) = .ok shape.entityType := by
  have hname := Catalog.find?_name ht
  have hmem := Catalog.find?_mem ht
  have hself : s.isAssignable t.name shape.entityType := by
    rw [← hname]
    exact (Catalog.isAssignable_iff hs hc hmem hmem).mpr (.self hmem)
  simp only [lookupType, type, Catalog.entityType, ht, QueryError.ofSchema, Except.mapError,
    bind, Except.bind, if_pos hself]
  rfl

theorem bindMember_navigation (shape : EntityShape) (hs : s.Sorted) (hc : s.Rooted)
    (howns : s.OwnsTargets) (hdeclares : s.DeclaresMembers) {t : EntityType}
    (ht : s.find? shape.entityType = some t)
    {n : Navigation} (hn : s.findNavigation? shape.entityType n.name = some n)
    (hp : s.findProperty? shape.entityType n.name = none) (hown : n.isOwnership)
    (href : n.isCollection = false) :
    shape.bindMember s n.name (some shape.type) false
      = .ok (some (.entity ⟨n.target, .object n (s.elementOf n) shape.access⟩)) := by
  obtain ⟨u, hu, hnu, _⟩ := Catalog.findNavigation?_eq_some hn
  obtain ⟨target, field, htarget, hfield⟩ :=
    howns.embeddedName? (Catalog.mem_navigations_of_findNavigation? hn) hown
  have hcheck : shape.checkMember s n.declaringType n.name = .ok () := by
    rw [(hdeclares u (Catalog.mem_types_of_mem_chain hu)).navigations n hnu]
    exact checkMember_eq_ok hu
  have hname : s.embeddedName n = .ok (s.elementOf n) := by
    simp [Schema.embeddedName, Schema.elementOf, Schema.containingName?, Catalog.entityType,
      htarget, hfield, QueryError.ofSchema, Except.mapError, bind, Except.bind]
  simp [bindMember, lookupType_self hs hc ht, hp, hn, bindNavigation, hcheck, href, hname, bind,
    Except.bind, pure, Except.pure]

theorem bindMember_property (shape : EntityShape) (hs : s.Sorted) (hc : s.Rooted)
    (hdeclares : s.DeclaresMembers) {t : EntityType} (ht : s.find? shape.entityType = some t)
    {p : Property}
    (hp : s.findProperty? shape.entityType p.name = some p) (hpersisted : p.isPersisted) :
    shape.bindMember s p.name (some shape.type) false
      = .ok (some (.scalar (.field (.ofProperty p shape.access)))) := by
  obtain ⟨u, hu, hpu, _⟩ := Catalog.findProperty?_eq_some hp
  have hcheck : shape.checkMember s p.declaringType p.name = .ok () := by
    rw [(hdeclares u (Catalog.mem_types_of_mem_chain hu)).properties p hpu]
    exact checkMember_eq_ok hu
  have hdelivered : (Field.ofProperty p shape.access).delivered? false
      = some (.ofProperty p shape.access) := by
    have hname : p.element.isEmpty = false := by simpa [Property.isPersisted] using hpersisted
    simp [Field.delivered?, Field.ofProperty, hname]
  simp [bindMember, lookupType_self hs hc ht, hp, bindProperty, hcheck, hdelivered, bind,
    Except.bind, pure, Except.pure]

end EntityShape

namespace HostExpr

variable {s : Schema} {shaper : HostExpr} {root : EntityShape}

/-- A chain of members without conversions, and the object it leads to. -/
structure LeadsTo (s : Schema) (shaper : HostExpr) (root : EntityShape) (e : HostExpr)
    (shape : EntityShape) : Prop where
  chain : MemberChain shaper e
  bindsTo : BindsTo s shaper root e (.entity shape)
  plain : e.convertedType? = none

/-- **Members along a route** lead to the object that is reached through the fields of the
route. -/
theorem LeadsTo.nested (hs : s.Sorted) (hc : s.Rooted) (howns : s.OwnsTargets)
    (hdeclares : s.DeclaresMembers) {name last : String} {ns : List Navigation}
    (hroute : s.Route name ns last) :
    ∀ {e : HostExpr} {access : Access} {members : List (String × HostType)},
      LeadsTo s shaper root e ⟨name, access⟩ → (s.find? name).isSome →
      members.map Prod.fst = ns.map (·.name) →
      (s.find? last).isSome ∧ ∃ access', LeadsTo s shaper root (e.nested members) ⟨last, access'⟩
        ∧ access'.path = access.path ++ ns.map s.elementOf := by
  induction hroute with
  | here =>
    intro e access members he hname hmembers
    cases List.map_eq_nil_iff.mp hmembers
    exact ⟨hname, access, he, (List.append_nil _).symm⟩
  | @through name last n ns hn hp hown href _ ih =>
    intro e access members he hname hmembers
    obtain ⟨⟨member, type⟩, rest, rfl, hmember, hrest⟩ := List.map_eq_cons_iff.mp hmembers
    cases hmember
    obtain ⟨t, ht⟩ := Option.isSome_iff_exists.mp hname
    -- the navigation is bound on the type reached so far, to the object of its target
    obtain ⟨target, _, htarget, _⟩ :=
      howns.embeddedName? (Catalog.mem_navigations_of_findNavigation? hn) hown
    have hbind := EntityShape.bindMember_navigation ⟨name, access⟩ hs hc howns
      hdeclares ht hn hp hown href
    have hstep : LeadsTo s shaper root (.member e n.name type)
        ⟨n.target, .object n (s.elementOf n) access⟩ :=
      { chain := .member he.chain
        bindsTo := .member he.bindsTo (by rw [he.plain]; exact hbind)
        plain := rfl }
    -- from there on the rest of the route is followed
    obtain ⟨hlast, access', hnested, hpath⟩ := ih hstep (by rw [htarget]; rfl) hrest
    refine ⟨hlast, access', hnested, ?_⟩
    rw [hpath, Access.path, List.append_assoc]
    rfl

end HostExpr

/-! ## Translation -/

/-- Queries start at the documents of their entity type, whatever operators were applied. -/
theorem ShapedQuery.Operated.startsAt {t : Translator} {entityType : String}
    {created query : ShapedQuery} (hcreate : ShapedQuery.create t entityType = .ok created)
    (h : ShapedQuery.Operated t created query) :
    t.StartsAt query.select query.shaper
      (.root created.select.entityType Select.rootAlias) := by
  have hmapped : query.select.mapped .root = created.select.mapped .root := by
    rw [Select.mapped, Select.mapped, h.sameStart.mapping]
  obtain ⟨found, collection, _, rfl⟩ := create_eq_ok hcreate
  rw [h.sameStart.shaper]
  exact Translator.startsAt_of_mapped hmapped

/-- A new query is of the type that it was created for. -/
theorem ShapedQuery.create_entityType {t : Translator} {name : String} {created : ShapedQuery}
    (h : ShapedQuery.create t name = .ok created) : created.select.entityType = name := by
  obtain ⟨found, collection, hfound, rfl⟩ := create_eq_ok h
  exact Catalog.find?_name (Catalog.entityType_eq_ok (Except.mapError_eq_ok_iff.mp hfound))

theorem Schema.exists_of_isDocumentRoot {s : Schema} {name : String}
    (h : s.isDocumentRoot name) : ∃ t, s.find? name = some t :=
  Option.isSome_iff_exists.mp (contains_of_isDocumentRoot h)

/-- Queries can be created for all types with documents of their own. -/
theorem ShapedQuery.exists_create {t : Translator} {name : String}
    (h : t.schema.isDocumentRoot name) : ∃ created, ShapedQuery.create t name = .ok created := by
  obtain ⟨found, hfound⟩ := Schema.exists_of_isDocumentRoot h
  obtain ⟨collection, hcollection⟩ := Schema.exists_collectionName_iff.mpr h
  cases hcreate : ShapedQuery.create t name with
  | ok created => exact ⟨created, rfl⟩
  | error e =>
    simp only [ShapedQuery.create, Select.ofType, Catalog.entityType, hfound,
      QueryError.ofSchema, Except.mapError, Catalog.find?_name hfound, hcollection, bind,
      Except.bind] at hcreate
    cases hcreate

namespace Translator

variable {t : Translator} {q : Select} {shaper : HostExpr} {root : EntityShape}

/-- A chain that ends in a field is translated to that field. -/
theorem translate_member (hstart : t.StartsAt q shaper root)
    {source : HostExpr} {name : String} {type : HostType} {f : Field}
    (hsource : HostExpr.MemberChain shaper source)
    (hf : HostExpr.BindsTo t.schema shaper root (.member source name type) (.scalar (.field f)))
    (hmapping : f.mapping.isSome) :
    t.translate q (.member source name type) = .ok (some (.field f)) := by
  have hvisit : (t.visit q false (.member source name type)).Yields (.scalar (.field f)) := by
    have hbound := (visitSource_yields hstart (.member hsource) _).mpr hf
    rw [visitSource] at hbound
    rw [visit]
    exact Attempt.yields_orElse.mpr (.inl hbound)
  rw [translate_eq hvisit, finish_of_wellMapped (.mapped (Scalar.mapped_field hmapping)),
    Scalar.applyMapping_of_isSome (s := .field f) hmapping]

end Translator

/-! ## Entries along a route -/

/-- What can have a field in documents. -/
inductive Member where
  | property (p : Property)
  | navigation (n : Navigation)
  deriving DecidableEq

namespace Schema

/-- All members of a type, inherited ones among them. -/
def members (s : Schema) (typeName : String) : List Member :=
  (s.properties typeName).map .property ++ (s.navigations typeName).map .navigation

/-- The element that a member uses, if it uses one. -/
def usedElement? (s : Schema) : Member → Option String
  | .property p => if p.isPersisted then some p.element else none
  | .navigation n => if n.isOwnership then some (s.elementOf n) else none

/-- No other member of a type uses an element, and no discriminator does. -/
structure UsedOnlyBy (s : Schema) (t : EntityType) (element : String) (member : Member) :
    Prop where
  members : ∀ other ∈ s.members t.name, s.usedElement? other = some element → other = member
  discriminator : s.isPolymorphic t → s.discriminatorElement ≠ element

variable {s : Schema} {t : EntityType} {element : String} {member : Member}

theorem UsedOnlyBy.property (h : s.UsedOnlyBy t element member) {p : Property}
    (hp : p ∈ s.properties t.name) (hpersisted : p.isPersisted) (helement : p.element = element) :
    .property p = member := by
  refine h.members _ (List.mem_append_left _ (List.mem_map_of_mem hp)) ?_
  rw [usedElement?, if_pos hpersisted, helement]

theorem UsedOnlyBy.navigation (h : s.UsedOnlyBy t element member) {n : Navigation}
    (hn : n ∈ s.navigations t.name) (hown : n.isOwnership) (helement : s.elementOf n = element) :
    .navigation n = member := by
  refine h.members _ (List.mem_append_right _ (List.mem_map_of_mem hn)) ?_
  rw [usedElement?, if_pos hown, helement]

end Schema

namespace Entry

variable {s : Schema} {e : Entry} {later : Documents}

/-- Where nothing else uses the element of a property, the document holds its value. -/
theorem get?_document_property {p : Property} {v : Value}
    (honly : s.UsedOnlyBy e.entityType p.element (.property p))
    (hp : p ∈ s.properties e.entityType.name) (hpersisted : p.isPersisted)
    (hcurrent : e.current.get? p.name = some v) :
    (e.document s later).get? p.element = some v := by
  -- navigations and the discriminator are kept away from the element
  have hholder : e.holder? s later p.element = none := by
    refine List.find?_eq_none.mpr ?_
    intro n hn hused
    simp only [embeds, Bool.and_eq_true, decide_eq_true_eq] at hused
    cases honly.navigation (List.mem_reverse.mp hn) hused.1.1 hused.2
  have hfields : (e.fields s).get? p.element = some v := by
    refine get?_fields hcurrent hpersisted ?_ hp
    -- and of the properties under the element the last one is the property itself
    intro q hq helement
    have hqpersisted : q.isPersisted := by rwa [Property.isPersisted, helement]
    cases honly.property hq hqpersisted helement
    rfl
  rw [get?_document, hholder, get?_discriminate,
    if_neg fun hsame => honly.discriminator hsame.1 hsame.2, hfields]
  rfl

end Entry

namespace ChangeSet

/-- The entries along a route: each navigation leads to the first stored entry that matches, and
nothing else of the type that is left uses its element. -/
inductive Along (s : Schema) (changes : ChangeSet) : Entry → List Navigation → Entry → Prop where
  | here {e : Entry} : Along s changes e [] e
  | through {e part last : Entry} {n : Navigation} {ns : List Navigation} :
    s.UsedOnlyBy e.entityType (s.elementOf n) (.navigation n) →
    changes.entries.find? (e.leadsTo s n) = some part → Along s changes part ns last →
    Along s changes e (n :: ns) last

variable {s : Schema} {changes : ChangeSet}

/-- A reference embeds the document of the first entry that it leads to. -/
theorem Tracked.follow?_reference (h : changes.Tracked s) {e part : Entry} {n : Navigation}
    (he : e ∈ changes.entries) (hn : n ∈ s.navigations e.entityType.name)
    (hown : n.isOwnership) (href : n.isCollection = false)
    (honly : s.UsedOnlyBy e.entityType (s.elementOf n) (.navigation n))
    (hpart : changes.entries.find? (e.leadsTo s n) = some part) (rest : List Value.Step) :
    (changes.documentOf s .nothing e.id).toValue.follow? (.field (s.elementOf n) :: rest)
      = (changes.documentOf s .nothing part.id).toValue.follow? rest := by
  have hholder := holder?_of_only hn hown (List.mem_of_find?_eq_some hpart)
    (List.find?_some hpart) fun k hk hkown helement =>
      Member.navigation.inj (honly.navigation hk hkown helement)
  have hplace : Place s changes e part [.field (s.elementOf n)] := .reference hholder href hpart
  -- no document is given, so what they depend on does not matter
  have hfollow := hplace.follow? (fun _ p => changes.documentOf s .nothing p.id) []
  rw [h.documentOf_entries he rfl, ← List.singleton_append, Value.follow?_append]
  exact (congrArg (·.bind (Value.follow? rest)) hfollow).trans rfl

/-- **The document of an entry holds, along a route, the value of a property** of the entry at
its end. -/
theorem Tracked.follow?_along (h : changes.Tracked s) (hs : s.Sorted) (hc : s.Rooted)
    {name typeName : String} {ns : List Navigation} (hroute : s.Route name ns typeName)
    {p : Property} {v : Value} (hp : s.findProperty? typeName p.name = some p)
    (hpersisted : p.isPersisted) :
    ∀ {e last : Entry}, e ∈ changes.entries → s.isAssignable name e.entityType.name →
      changes.Along s e ns last → s.UsedOnlyBy last.entityType p.element (.property p) →
      last.current.get? p.name = some v →
      (changes.documentOf s .nothing e.id).toValue.follow?
        ((ns.map s.elementOf ++ [p.element]).map .field) = some v := by
  induction hroute with
  | here =>
    intro e last he hassignable halong honly hcurrent
    cases halong
    -- the entry may be of a derived type, which has the property as well
    have htype := Catalog.find?_mem (h.entityType e he)
    obtain ⟨t, ht, hderives⟩ := Catalog.exists_of_isAssignable hs hc htype hassignable
    cases Catalog.find?_name ht
    have hmem := Catalog.properties_subset hs hc hderives
      (Catalog.mem_properties_of_findProperty? hp)
    rw [h.documentOf_eq (h.entry?_id he)]
    simp only [List.map_nil, List.nil_append, List.map_cons, Document.toValue, Value.follow?]
    exact (congrArg (·.bind (Value.follow? []))
      (Entry.get?_document_property honly hmem hpersisted hcurrent)).trans rfl
  | through hn _ hown href _ ih =>
    intro e last he hassignable halong honly hcurrent
    cases halong with
    | through hused hpart halong =>
      -- and so has it the navigation, whose first match is the part
      have htype := Catalog.find?_mem (h.entityType e he)
      obtain ⟨t, ht, hderives⟩ := Catalog.exists_of_isAssignable hs hc htype hassignable
      cases Catalog.find?_name ht
      have hmem := Catalog.navigations_subset hs hc hderives
        (Catalog.mem_navigations_of_findNavigation? hn)
      have hleads := List.find?_some hpart
      simp only [Entry.leadsTo, Bool.and_eq_true] at hleads
      rw [List.map_cons, List.cons_append, List.map_cons,
        h.follow?_reference he hmem hown href hused hpart]
      exact ih hp (List.mem_of_find?_eq_some hpart) hleads.2 halong honly hcurrent

end ChangeSet

/-! ## Reading what was written -/

/-- **Queries read where saves write.** A route of owned references from a root type and a property
at its end are translated, whatever operators the query has been through, to a field whose path
is the names that contain the targets, followed by the element of the property. And the same path
leads, in the document composed for an entry of the root type, to the value that the property has
in the first stored entry that matches at each step, if nothing else uses the elements on the
way. -/
theorem path_leads_to_value {m : Model} {naming : CollectionNaming} {t : Translator}
    {rootType last : String} {ns : List Navigation} {p : Property}
    (hm : m.Sorted) (hdeclares : m.DeclaresMembers)
    (hs : m.finish (Convention.defaults naming) = .ok t.schema)
    (hroot : t.schema.isDocumentRoot rootType) (hroute : t.schema.Route rootType ns last)
    (hp : t.schema.findProperty? last p.name = some p) (hpersisted : p.isPersisted) :
    ∃ path : List String,
      path.map some = ns.map t.schema.containingName? ++ [some p.element]
      ∧ (∃ created, ShapedQuery.create t rootType = .ok created
        ∧ ∀ query, ShapedQuery.Operated t created query → ∀ members : List (String × HostType),
          members.map Prod.fst = ns.map (·.name) ++ [p.name] →
          ∃ f, t.translate query.select (query.shaper.nested members) = .ok (some (.field f))
            ∧ f.property = p ∧ f.path = path)
      ∧ ∀ (changes : ChangeSet) (id : Nat) (e lastEntry : Entry), changes.Tracked t.schema →
        changes.entry? id = some e → t.schema.isAssignable rootType e.entityType.name →
        changes.Along t.schema e ns lastEntry →
        t.schema.UsedOnlyBy lastEntry.entityType p.element (.property p) →
        ∃ document, changes.compose t.schema id = .ok document
          ∧ ∀ v, lastEntry.current.get? p.name = some v →
            document.toValue.follow? (path.map .field) = some v := by
  have hsorted : t.schema.Sorted := Model.finish_sorted hm hs
  have hrooted : t.schema.Rooted := (Model.finish_eq_ok hs).1
  have howns := Model.finish_ownsTargets hs
  have hmembers := Model.finish_declaresMembers hs hdeclares
  -- the names of the targets are the elements that the document uses
  refine ⟨ns.map t.schema.elementOf ++ [p.element], ?_, ?_, ?_⟩
  · rw [List.map_append, List.map_map, List.map_singleton]
    congr 1
    exact List.map_congr_left fun n hn => (hroute.containingName?_eq howns n hn).symm
  · obtain ⟨created, hcreate⟩ := ShapedQuery.exists_create hroot
    refine ⟨created, hcreate, ?_⟩
    -- the access is a chain of members to the last object, and a member of that
    intro query hquery members hnames
    obtain ⟨init, final, rfl, hinit, hfinal⟩ := List.map_eq_append_iff.mp hnames
    obtain ⟨⟨name, type⟩, rfl, hname⟩ := List.map_eq_singleton_iff.mp hfinal
    cases hname
    have hstart := hquery.startsAt hcreate
    rw [ShapedQuery.create_entityType hcreate] at hstart
    obtain ⟨entityType, buffer, hshaper⟩ := hstart.isShaper
    obtain ⟨found, hfound⟩ := Schema.exists_of_isDocumentRoot hroot
    have hbegin : HostExpr.LeadsTo t.schema query.shaper (.root rootType Select.rootAlias)
        query.shaper ⟨rootType, .root rootType Select.rootAlias⟩ :=
      { chain := .shaper, bindsTo := .shaper, plain := by rw [hshaper]; rfl }
    obtain ⟨hlast, access, hleads, hpath⟩ := hbegin.nested hsorted hrooted howns hmembers hroute
      (by rw [hfound]; rfl) hinit
    -- the last type is known, and the property on it is bound to a field
    obtain ⟨lastType, hlast⟩ := Option.isSome_iff_exists.mp hlast
    have hbind := EntityShape.bindMember_property ⟨last, access⟩ hsorted hrooted
      hmembers hlast hp hpersisted
    refine ⟨.ofProperty p access, ?_, rfl, ?_⟩
    · rw [HostExpr.nested_concat]
      refine Translator.translate_member hstart hleads.chain
        (.member hleads.bindsTo (by rw [hleads.plain]; exact hbind)) ?_
      rw [EntityShape.mapping_of_bindMember (Model.finish_valid hs) hbind]
      rfl
    · rw [Field.path, Field.ofProperty, hpath, Access.path, List.nil_append]
  · -- the document of the entry is laid out along the same elements
    intro changes id e lastEntry hchanges he hassignable halong honly
    refine ⟨_, ChangeSet.compose_eq_documentOf howns.knowsTargets he, ?_⟩
    intro v hv
    rw [← hchanges.id id e he]
    exact hchanges.follow?_along hsorted hrooted hroute hp hpersisted (List.mem_of_getElem? he)
      hassignable halong honly hv

/-- The people of the schema. -/
def person : EntityType := people.types.get ⟨1, by decide⟩

/-- The addresses of the schema. -/
def address : EntityType := people.types.get ⟨0, by decide⟩

/-- Someone who is new, at home in Rome. -/
def romanChanges : ChangeSet where
  entries := [
    ⟨0, person, .added, [("Id", .int 1)], [], none⟩,
    ⟨1, address, .added, [("City", .str "Rome")], [], some 0⟩]

theorem tracked_romanChanges : romanChanges.Tracked people := by
  have hperson : (ChangeSet.track ⟨[]⟩ person .added [("Id", .int 1)]).2.Tracked people :=
    ChangeSet.tracked_empty.track rfl
  have haddress : ChangeSet.trackOwned (ChangeSet.track ⟨[]⟩ person .added [("Id", .int 1)]).2 0
      address .added [("City", .str "Rome")] = .ok (1, romanChanges) := rfl
  exact hperson.trackOwned rfl haddress

theorem path_leads_to_value_home : ∃ path : List String, path = ["Home", "City"]
    ∧ (∃ f, Translator.translate { schema := people } allPeople.select
        (allPeople.shaper.nested [("Home", .entity "Address"), ("City", .string)])
          = .ok (some (.field f)) ∧ f.path = path)
    ∧ ∃ document, romanChanges.compose people 0 = .ok document
      ∧ document.toValue.follow? (path.map .field) = some (.str "Rome") := by
  have hroute : people.Route "Person" [⟨"Home", "Person", "Address", false, true⟩] "Address" :=
    .through rfl rfl rfl rfl .here
  obtain ⟨path, hpath, ⟨created, hcreate, hread⟩, hwrite⟩ :=
    path_leads_to_value (t := { schema := people }) (m := peopleModel)
      (p := ⟨"City", "Address", .string, none, false, false, none⟩) (by decide) (by decide)
      finish_peopleModel rfl hroute rfl rfl
  have hcity : path = ["Home", "City"] :=
    List.map_injective_iff.mpr (fun _ _ => Option.some.inj) hpath
  refine ⟨path, hcity, ?_, ?_⟩
  · cases hcreate
    obtain ⟨f, hf, _, hfpath⟩ := hread _ .created
      [("Home", .entity "Address"), ("City", .string)] rfl
    exact ⟨f, hf, hfpath⟩
  · obtain ⟨document, hdocument, hvalue⟩ := hwrite romanChanges 0 _ _ tracked_romanChanges rfl
      rfl (.through ⟨by decide, by decide⟩ rfl .here) ⟨by decide, by decide⟩
    exact ⟨document, hdocument, hvalue _ rfl⟩

end Odm
