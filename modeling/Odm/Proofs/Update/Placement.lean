import Mathlib.Data.List.Nodup
import Odm.Proofs.Update.Layout

/-!
# The places of entries in the documents of their owners

An entry records which entry owns it, but not through which navigation. Composition matches parts
to navigations by their types: a collection embeds every part that its target admits, a reference
the first one, and of several navigations under one field the last that finds a part counts. So
a part can be left out, and it can be embedded under more than one field.

`Place` says where one owner embeds a part of its own, by navigations and parts alone. To see that
there are no other places, the documents of all parts are made to depend on a given one: the
document of the owner holds the given one at places and nowhere else.
-/

namespace Odm

namespace ChangeSet

variable {s : Schema} {changes : ChangeSet}

/-! ## Places -/

/-- The navigation whose parts an element holds: of the owning navigations under that element
that lead to anything, the last one. -/
def holder? (s : Schema) (changes : ChangeSet) (owner : Entry) (element : String) :
    Option Navigation :=
  (s.navigations owner.entityType.name).reverse.find? fun n =>
    (n.isOwnership && changes.entries.any (owner.leadsTo s n)) && s.elementOf n = element

/-- An element of an owner takes an entry: it holds a reference of which the entry is the first
part, or a collection of which it is a part. -/
inductive Takes (s : Schema) (changes : ChangeSet) (owner part : Entry) (element : String) :
    Prop where
  | reference {n : Navigation} :
    changes.holder? s owner element = some n → n.isCollection = false →
    changes.entries.find? (owner.leadsTo s n) = some part → Takes s changes owner part element
  | collection {n : Navigation} :
    changes.holder? s owner element = some n → n.isCollection → owner.leadsTo s n part →
    Takes s changes owner part element

/-- The places of an entry in the document of its owner. -/
inductive Place (s : Schema) (changes : ChangeSet) (owner part : Entry) :
    List Value.Step → Prop where
  | reference {element : String} {n : Navigation} :
    changes.holder? s owner element = some n → n.isCollection = false →
    changes.entries.find? (owner.leadsTo s n) = some part →
    Place s changes owner part [.field element]
  | item {element : String} {n : Navigation} {i : Nat} :
    changes.holder? s owner element = some n → n.isCollection →
    (changes.entries.filter (owner.leadsTo s n))[i]? = some part →
    Place s changes owner part [.field element, .item i]

/-! ## One owner -/

/-- No fixed value is the document of every entry. -/
theorem not_forall_toValue (v : Option Value) : ¬ ∀ given : Document, v = some given.toValue := by
  intro h
  have hempty := (h []).symm.trans (h [("", .null)])
  cases hempty

section Owner

variable {owner part : Entry} (doc : Document → Entry → Document)

/-- All entries with documents that depend on a given one. -/
def family (changes : ChangeSet) (given : Document) : Documents :=
  changes.entries.map fun e => (e, doc given e)

theorem partsOf_family (given : Document) (n : Navigation) :
    owner.partsOf s (changes.family doc given) n
      = (changes.entries.filter (owner.leadsTo s n)).map fun e => (e, doc given e) := by
  rw [Entry.partsOf, family, List.filter_map]
  rfl

theorem holder?_family (given : Document) (element : String) :
    owner.holder? s (changes.family doc given) element = changes.holder? s owner element := by
  rw [Entry.holder?, holder?]
  congr 1
  funext n
  rw [Entry.embeds, partsOf_family]
  congr 2
  rw [Bool.eq_iff_iff]
  simp

theorem get?_family (given : Document) (element : String) :
    (owner.document s (changes.family doc given)).get? element
      = ((changes.holder? s owner element).map (owner.embedded s (changes.family doc given))
          <|> (owner.discriminate s (owner.fields s)).get? element) := by
  rw [Entry.get?_document, holder?_family]

theorem embedded_reference {n : Navigation} (href : n.isCollection = false) (given : Document) :
    owner.embedded s (changes.family doc given) n
      = ((changes.entries.find? (owner.leadsTo s n)).map fun e =>
        (doc given e).toValue).getD .null := by
  rw [Entry.embedded, href, partsOf_family, List.head?_map, List.head?_filter, Option.map_map]
  rfl

theorem embedded_collection {n : Navigation} (hcollection : n.isCollection) (given : Document) :
    owner.embedded s (changes.family doc given) n
      = .arr ((changes.entries.filter (owner.leadsTo s n)).map fun e =>
        (doc given e).toValue) := by
  rw [Entry.embedded, hcollection, if_pos rfl, partsOf_family, List.map_map]
  rfl

/-- Under an element that holds a navigation stands what that navigation embeds. -/
theorem follow?_family {element : String} {n : Navigation}
    (hholder : changes.holder? s owner element = some n) (given : Document)
    (rest : List Value.Step) :
    (owner.document s (changes.family doc given)).toValue.follow? (.field element :: rest)
      = (owner.embedded s (changes.family doc given) n).follow? rest := by
  have hget : (owner.document s (changes.family doc given)).get? element = _ :=
    get?_family doc given element
  rw [hholder] at hget
  rw [Document.toValue, Value.follow?]
  exact (congrArg (·.bind (Value.follow? rest)) hget).trans rfl

/-- A place of a part holds the document of that part. -/
theorem Place.follow? {place : List Value.Step} (h : Place s changes owner part place)
    (given : Document) :
    (owner.document s (changes.family doc given)).toValue.follow? place
      = some (doc given part).toValue := by
  cases h with
  | reference hholder href hpart =>
    rw [follow?_family doc hholder, embedded_reference doc href, hpart]
    rfl
  | item hholder hcollection hpart =>
    rw [follow?_family doc hholder, embedded_collection doc hcollection, Value.follow?,
      List.getElem?_map, hpart]
    rfl

/-- Whether a document holds anything under an element does not depend on the given one. -/
theorem isSome_get?_family (given given' : Document) (element : String) :
    ((owner.document s (changes.family doc given)).get? element).isSome
      = ((owner.document s (changes.family doc given')).get? element).isSome := by
  rw [get?_family, get?_family]
  cases changes.holder? s owner element <;> rfl

variable {doc} (hconst : ∀ e ∈ changes.entries, e.owner = some owner.id → e ≠ part →
  ∀ given given', doc given e = doc given' e)

include hconst in
/-- The documents of other parts never hold the given document, since they do not change. -/
theorem eq_of_follow? {n : Navigation} {e : Entry} (he : e ∈ changes.entries)
    (hleads : owner.leadsTo s n e) {rest : List Value.Step}
    (h : ∀ given, (doc given e).toValue.follow? rest = some given.toValue) : e = part := by
  by_contra hne
  simp only [Entry.leadsTo, Bool.and_eq_true, decide_eq_true_eq] at hleads
  refine not_forall_toValue ((doc [] e).toValue.follow? rest) fun given => ?_
  rw [hconst e he hleads.1.1 hne [] given]
  exact h given

include hconst in
theorem exists_place_of_holder {element : String} {n : Navigation} {rest : List Value.Step}
    (hholder : changes.holder? s owner element = some n)
    (h : ∀ given, (owner.embedded s (changes.family doc given) n).follow? rest
      = some given.toValue) :
    ∃ place tail, Place s changes owner part place ∧ .field element :: rest = place ++ tail
      ∧ ∀ given, (doc given part).toValue.follow? tail = some given.toValue := by
  cases hcollection : n.isCollection with
  | false =>
    -- a reference embeds the first entry that it leads to
    simp only [embedded_reference doc hcollection] at h
    cases hfind : changes.entries.find? (owner.leadsTo s n) with
    | none =>
      rw [hfind] at h
      exact absurd h (not_forall_toValue (Value.null.follow? rest))
    | some e =>
      rw [hfind] at h
      cases eq_of_follow? hconst (List.mem_of_find?_eq_some hfind) (List.find?_some hfind) h
      exact ⟨_, rest, .reference hholder hcollection hfind, rfl, h⟩
  | true =>
    -- a collection embeds them all, and the path goes on with the item of one
    simp only [embedded_collection doc hcollection] at h
    cases rest with
    | nil => cases h []
    | cons step rest =>
      cases step with
      | field => cases h []
      | item i =>
        simp only [Value.follow?, List.getElem?_map] at h
        cases hpart : (changes.entries.filter (owner.leadsTo s n))[i]? with
        | none => rw [hpart] at h; cases h []
        | some e =>
          rw [hpart] at h
          obtain ⟨hmem, hleads⟩ := List.mem_filter.mp (List.mem_of_getElem? hpart)
          cases eq_of_follow? hconst hmem hleads h
          exact ⟨_, rest, .item hholder hcollection hpart, rfl, h⟩

include hconst in
/-- **Only places hold a part.** Where the document of an owner holds the given document, the path
goes through a place of the part on whose document it depends. -/
theorem exists_place {path : List Value.Step}
    (h : ∀ given, (owner.document s (changes.family doc given)).toValue.follow? path
      = some given.toValue) :
    ∃ place rest, Place s changes owner part place ∧ path = place ++ rest
      ∧ ∀ given, (doc given part).toValue.follow? rest = some given.toValue := by
  cases path with
  | nil =>
    -- the document itself is never the given one, because it always has the same fields
    have hempty := Value.obj.inj (Option.some.inj (h []))
    have hfield := Value.obj.inj (Option.some.inj (h [("", .null)]))
    have hsome : ((owner.document s (changes.family doc [])).get? "").isSome = _ :=
      isSome_get?_family doc [] [("", .null)] ""
    rw [hempty, hfield] at hsome
    cases hsome
  | cons step rest =>
    cases step with
    | item i => cases h []
    | field element =>
      cases hholder : changes.holder? s owner element with
      | none =>
        -- fields and discriminators do not depend on any other document
        refine absurd ?_ (not_forall_toValue
          (((owner.discriminate s (owner.fields s)).get? element).bind (Value.follow? rest)))
        intro given
        have hget : (owner.document s (changes.family doc given)).get? element = _ :=
          get?_family doc given element
        rw [hholder] at hget
        exact (congrArg (·.bind (Value.follow? rest)) hget).symm.trans (h given)
      | some n =>
        exact exists_place_of_holder hconst hholder fun given =>
          (follow?_family doc hholder given rest).symm.trans (h given)

end Owner

/-! ## What elements take -/

variable {owner part : Entry}

theorem Place.eq_field {place : List Value.Step} (h : Place s changes owner part place) :
    ∃ element rest, place = .field element :: rest := by
  cases h with
  | reference => exact ⟨_, _, rfl⟩
  | item => exact ⟨_, _, rfl⟩

/-- An element takes an entry where there is a place under it. -/
theorem takes_iff_place (hpart : part ∈ changes.entries) (element : String) :
    changes.Takes s owner part element
      ↔ ∃ rest, Place s changes owner part (.field element :: rest) := by
  constructor
  · rintro (⟨hholder, href, hfind⟩ | ⟨hholder, hcollection, hleads⟩)
    · exact ⟨[], .reference hholder href hfind⟩
    · have hmem := List.mem_filter.mpr ⟨hpart, hleads⟩
      obtain ⟨i, hi⟩ := List.mem_iff_getElem?.mp hmem
      exact ⟨[.item i], .item hholder hcollection hi⟩
  · rintro ⟨rest, hplace⟩
    cases hplace with
    | reference hholder href hfind => exact .reference hholder href hfind
    | item hholder hcollection hi =>
      exact .collection hholder hcollection (List.mem_filter.mp (List.mem_of_getElem? hi)).2

theorem Tracked.nodup (h : changes.Tracked s) : changes.entries.Nodup := by
  rw [List.nodup_iff_getElem?_ne_getElem?]
  intro i j hij hj heq
  have hi := List.getElem?_eq_getElem (Nat.lt_trans hij hj)
  have hidi := h.id i _ hi
  rw [heq] at hi
  have hidj := h.id j _ hi
  omega

/-- An element has at most one place for an entry. -/
theorem Place.eq_of_field (h : changes.Tracked s) {element : String}
    {rest rest' : List Value.Step} (hplace : Place s changes owner part (.field element :: rest))
    (hplace' : Place s changes owner part (.field element :: rest')) : rest = rest' := by
  -- a navigation is a reference or a collection, so both places are of one kind
  cases hplace with
  | reference hholder href _ =>
    cases hplace' with
    | reference => rfl
    | item hholder' hcollection _ =>
      cases hholder.symm.trans hholder'
      rw [href] at hcollection
      cases hcollection
  | item hholder hcollection hi =>
    cases hplace' with
    | reference hholder' href _ =>
      cases hholder.symm.trans hholder'
      rw [href] at hcollection
      cases hcollection
    | item hholder' _ hj =>
      cases hholder.symm.trans hholder'
      -- one entry is at one position only
      have hlt := (List.getElem?_eq_some_iff.mp hi).1
      rw [(List.getElem?_inj hlt (h.nodup.filter _)).mp (hi.trans hj.symm)]

theorem holder?_eq_some {element : String} {n : Navigation}
    (h : changes.holder? s owner element = some n) :
    n ∈ s.navigations owner.entityType.name ∧ n.isOwnership ∧ s.elementOf n = element := by
  have hused := List.find?_some h
  simp only [Bool.and_eq_true, decide_eq_true_eq] at hused
  exact ⟨List.mem_reverse.mp (List.mem_of_find?_eq_some h), hused.1.1, hused.2⟩

/-- An element takes an entry through an owning navigation that leads to it. -/
theorem Takes.exists_navigation {element : String} (h : changes.Takes s owner part element) :
    ∃ n ∈ s.navigations owner.entityType.name, n.isOwnership ∧ s.elementOf n = element
      ∧ owner.leadsTo s n part
      ∧ (n.isCollection = false → changes.entries.find? (owner.leadsTo s n) = some part) := by
  cases h with
  | reference hholder _ hfind =>
    obtain ⟨hn, hown, helement⟩ := holder?_eq_some hholder
    exact ⟨_, hn, hown, helement, List.find?_some hfind, fun _ => hfind⟩
  | collection hholder hcollection hleads =>
    obtain ⟨hn, hown, helement⟩ := holder?_eq_some hholder
    refine ⟨_, hn, hown, helement, hleads, ?_⟩
    rw [hcollection]
    exact nofun

/-- An element holds a navigation that leads to anything, if no other one is stored there. -/
theorem holder?_of_only {n : Navigation} (hn : n ∈ s.navigations owner.entityType.name)
    (hown : n.isOwnership) (hpart : part ∈ changes.entries) (hleads : owner.leadsTo s n part)
    (honly : ∀ k ∈ s.navigations owner.entityType.name, k.isOwnership →
      s.elementOf k = s.elementOf n → k = n) :
    changes.holder? s owner (s.elementOf n) = some n := by
  cases hfound : changes.holder? s owner (s.elementOf n) with
  | none =>
    have hnone := List.find?_eq_none.mp hfound n (List.mem_reverse.mpr hn)
    have hany : changes.entries.any (owner.leadsTo s n) :=
      List.any_eq_true.mpr ⟨part, hpart, hleads⟩
    rw [hown, hany] at hnone
    simp at hnone
  | some k =>
    obtain ⟨hk, hkown, helement⟩ := holder?_eq_some hfound
    rw [honly k hk hkown helement]

/-- An element takes an entry to which its owner has a single owning navigation, if nothing else
is stored under that element and, for a reference, the entry comes first. -/
theorem existsUnique_takes {n : Navigation} (hn : n ∈ s.navigations owner.entityType.name)
    (hown : n.isOwnership) (hpart : part ∈ changes.entries) (hleads : owner.leadsTo s n part)
    (hadmits : ∀ k ∈ s.navigations owner.entityType.name, k.isOwnership →
      s.isAssignable k.target part.entityType.name → k = n)
    (honly : ∀ k ∈ s.navigations owner.entityType.name, k.isOwnership →
      s.elementOf k = s.elementOf n → k = n)
    (hfirst : n.isCollection = false → changes.entries.find? (owner.leadsTo s n) = some part) :
    ∃! element, changes.Takes s owner part element := by
  have hholder := holder?_of_only hn hown hpart hleads honly
  have hself : changes.Takes s owner part (s.elementOf n) := by
    cases hcollection : n.isCollection with
    | false => exact .reference hholder hcollection (hfirst hcollection)
    | true => exact .collection hholder hcollection hleads
  refine ⟨s.elementOf n, hself, ?_⟩
  intro element htakes
  obtain ⟨k, hk, hkown, helement, hkleads, _⟩ := htakes.exists_navigation
  simp only [Entry.leadsTo, Bool.and_eq_true] at hkleads
  rw [← helement, hadmits k hk hkown hkleads.2]

end ChangeSet

end Odm
