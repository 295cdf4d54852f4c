import Odm.Proofs.Schema.Elements
import Odm.Proofs.Schema.Embedded
import Odm.Proofs.Update.Embedding

/-!
# The contents of documents and their elements

The document of an entry contains values of properties, the discriminator of its type and the
documents of embedded types, each under an element. Nobody checks that the elements differ. The
usual conventions give each content the element that the author of the model asks for: the
explicit one where there is one, else `_id` for the only key property of a type stored in documents
of its own, else the name of the property or of the navigation that embeds the type. So the
contents of a type are kept apart in the schema just if its author keeps them apart in the model,
and where they are, composition loses none of them.
-/

namespace Odm

/-! ## Contents -/

/-- What a field of a document can be there for. -/
inductive Content where
  /-- The value of all properties of that name. -/
  | property (name : String)
  | discriminator
  /-- The documents of an embedded type. -/
  | embedded (target : String)
  deriving DecidableEq, Repr

/-- Contents with their elements. -/
abbrev Contents := List (Content × String)

/-- Different contents have different elements. -/
def Contents.Apart (contents : Contents) : Prop :=
  ∀ x ∈ contents, ∀ y ∈ contents, x.2 = y.2 → x.1 = y.1

instance (contents : Contents) : Decidable contents.Apart :=
  inferInstanceAs (Decidable (∀ x ∈ contents, ∀ y ∈ contents, x.2 = y.2 → x.1 = y.1))

/-- The contents of the documents of a type, as composition finds them in a schema. -/
def Schema.contents (s : Schema) (t : EntityType) : Contents :=
  ((s.properties t.name).filter (·.isPersisted)).map (fun p => (.property p.name, p.element))
    ++ (if s.isPolymorphic t then [(.discriminator, s.discriminatorElement)] else [])
    ++ ((s.navigations t.name).filter (·.isOwnership)).map
      (fun n => (.embedded n.target, s.elementOf n))

namespace Model

/-- The element that an author asks for the target of an owning navigation. -/
def containingOf (m : Model) (n : Navigation) : String :=
  ((m.find? n.target).bind (·.containingName)).getD n.name

/-- The contents of the documents of a type, as the author of a model asks for them. -/
def contents (m : Model) (t : EntityType) : Contents :=
  ((m.chain t.name).reverse.flatMap fun u =>
      ((u.properties.filter (m.keeps u)).map fun p => (Content.property p.name, m.elementOf u p))
        |>.filter fun content => !content.2.isEmpty)
    ++ (if m.isPolymorphic (m.linked t) then [(.discriminator, m.discriminatorElement)] else [])
    ++ ((m.navigations t.name).filter (·.isOwnership)).map
      (fun n => (.embedded n.target, m.containingOf n))

end Model

/-! ## The contents of finished types -/

namespace Model

variable {m : Model} {naming : CollectionNaming} {s : Schema}

/-- The stored properties of a finished type are those that its author asks to have elements. -/
theorem finished_stored (m : Model) (naming : CollectionNaming) (u : EntityType) :
    ((m.finished naming u).properties.filter (·.isPersisted)).map
        (fun p => (Content.property p.name, p.element))
      = ((u.properties.filter (m.keeps u)).map fun p =>
          (Content.property p.name, m.elementOf u p)).filter fun content => !content.2.isEmpty := by
  obtain ⟨g, hg, hnamed⟩ := m.finished_properties naming u
  have hcontent : (fun p : Property => (Content.property p.name, p.element)) ∘ g
      = fun p => (Content.property p.name, m.elementOf u p) := by
    funext p
    rw [Function.comp_apply, (hnamed p).1, (hnamed p).2]
  rw [← hcontent, ← List.map_map, ← hg, List.filter_map]
  rfl

theorem navigations_of_finish (h : m.finish (Convention.defaults naming) = .ok s)
    (name : String) : s.navigations name = m.navigations name := by
  rw [Catalog.navigations, Catalog.navigations, finish_defaults h,
    Catalog.chain_mapTypes (m.finished_bone naming), ← List.map_reverse, List.flatMap_map]
  congr 1
  funext u
  rw [finished_navigations]

/-- An owning navigation of a type, inherited or not, is among those of the model, and its target
records it. -/
theorem exists_target_of_finish (h : m.finish (Convention.defaults naming) = .ok s)
    {name : String} {n : Navigation} (hn : n ∈ m.navigations name) (hown : n.isOwnership) :
    ∃ target, m.find? n.target = some target
      ∧ s.find? n.target = some (m.finished naming target)
      ∧ (m.finished naming target).ownership = some (Convention.ownershipOf n) := by
  obtain ⟨u, hu, hn⟩ := List.mem_flatMap.mp hn
  have hmem := Catalog.mem_types_of_mem_chain (List.mem_reverse.mp hu)
  obtain ⟨target, htarget⟩ := Option.isSome_iff_exists.mp (contains_target_of_finish h hmem hn)
  refine ⟨target, htarget, ?_, ?_⟩
  · rw [find?_of_finish h, htarget, Option.map_some]
  · exact ownership_of_finish h (Catalog.find?_mem htarget) (Catalog.mem_owning hmem hn hown)
      (Catalog.find?_name htarget)

/-- Navigations of a type that own the same target are recorded as the same ownership. -/
theorem ownershipOf_eq (h : m.finish (Convention.defaults naming) = .ok s) {name : String}
    {n k : Navigation} (hn : n ∈ m.navigations name) (hk : k ∈ m.navigations name)
    (hown : n.isOwnership) (hkown : k.isOwnership) (htarget : n.target = k.target) :
    Convention.ownershipOf n = Convention.ownershipOf k := by
  obtain ⟨_, _, hfound, hrecorded⟩ := exists_target_of_finish h hn hown
  obtain ⟨_, _, hkfound, hkrecorded⟩ := exists_target_of_finish h hk hkown
  -- the target is one type, and records one ownership
  rw [htarget, hkfound] at hfound
  rw [Option.some.inj hfound, hrecorded] at hkrecorded
  exact Option.some.inj hkrecorded

/-- A target is embedded under the element that its author asks for. -/
theorem elementOf_of_finish (h : m.finish (Convention.defaults naming) = .ok s) {name : String}
    {n : Navigation} (hn : n ∈ m.navigations name) (hown : n.isOwnership) :
    s.elementOf n = m.containingOf n := by
  obtain ⟨target, htarget, hfound, hrecorded⟩ := exists_target_of_finish h hn hown
  rw [Schema.elementOf, Schema.containingName?, hfound, containingOf, htarget, Option.bind_some,
    Option.bind_some, EntityType.embeddedName?, finished_containingName, hrecorded]
  cases target.containingName <;> rfl

/-- **A finished type has the contents that the author of the model asks for**, each under the
element that is asked for. -/
theorem contents_of_finish (h : m.finish (Convention.defaults naming) = .ok s) (t : EntityType) :
    s.contents (m.finished naming t) = m.contents t := by
  have hname : (m.finished naming t).name = t.name := m.finished_name naming t
  have hproperties : ((s.properties t.name).filter (·.isPersisted)).map
        (fun p => (Content.property p.name, p.element))
      = (m.chain t.name).reverse.flatMap fun u =>
          ((u.properties.filter (m.keeps u)).map fun p =>
            (Content.property p.name, m.elementOf u p)).filter
            fun content => !content.2.isEmpty := by
    rw [Catalog.properties, finish_defaults h, Catalog.chain_mapTypes (m.finished_bone naming),
      ← List.map_reverse, List.flatMap_map, List.filter_flatMap, List.map_flatMap]
    congr 1
    funext u
    exact m.finished_stored naming u
  -- a finished type has the base of the model's type, and the links that it got there
  have hpolymorphic : s.isPolymorphic (m.finished naming t) = m.isPolymorphic (m.linked t) := by
    have hbase : (m.finished naming t).base = t.base :=
      congrArg Prod.snd (m.finished_bone naming t)
    rw [Catalog.isPolymorphic, EntityType.isDerived, hbase, finished_below]
    rfl
  have hembedded : ((m.navigations t.name).filter (·.isOwnership)).map
        (fun n => (Content.embedded n.target, s.elementOf n))
      = ((m.navigations t.name).filter (·.isOwnership)).map
        fun n => (Content.embedded n.target, m.containingOf n) := by
    refine List.map_congr_left fun n hn => ?_
    obtain ⟨hn, hown⟩ := List.mem_filter.mp hn
    rw [elementOf_of_finish h hn hown]
  rw [Schema.contents, hname, hproperties, hpolymorphic, finish_discriminatorElement h,
    navigations_of_finish h, hembedded, contents]

end Model

/-! ## What entries provide -/

namespace Entry

variable {s : Schema} {e : Entry} {later : Documents}

/-- What the members of an entry's type provide for its document, each under its element. -/
inductive Provides (s : Schema) (e : Entry) (later : Documents) : Content → String → Value → Prop
    where
  | property {p : Property} {v : Value} :
    p ∈ s.properties e.entityType.name → p.isPersisted → e.current.get? p.name = some v →
    Provides s e later (.property p.name) p.element v
  | discriminator :
    s.isPolymorphic e.entityType →
    Provides s e later .discriminator s.discriminatorElement (.str e.entityType.discriminator)
  | embedded {n : Navigation} :
    n ∈ s.navigations e.entityType.name → e.embeds s later n →
    Provides s e later (.embedded n.target) (s.elementOf n) (e.embedded s later n)

/-- What is provided is one of the contents of the type. -/
theorem Provides.mem {content : Content} {element : String} {v : Value}
    (h : e.Provides s later content element v) : (content, element) ∈ s.contents e.entityType := by
  rw [Schema.contents, List.mem_append, List.mem_append]
  cases h with
  | property hp hpersisted _ =>
    exact .inl (.inl (List.mem_map.mpr ⟨_, List.mem_filter.mpr ⟨hp, hpersisted⟩, rfl⟩))
  | discriminator hpolymorphic =>
    rw [if_pos hpolymorphic]
    exact .inl (.inr (List.mem_singleton.mpr rfl))
  | embedded hn hembeds =>
    rw [embeds, Bool.and_eq_true] at hembeds
    exact .inr (List.mem_map.mpr ⟨_, List.mem_filter.mpr ⟨hn, hembeds.1⟩, rfl⟩)

/-- Whether a property puts a value into the document. -/
def puts (e : Entry) (p : Property) : Bool := p.isPersisted && (e.current.get? p.name).isSome

/-- **A field holds the value of the last property under its element** that has one. -/
theorem get?_fields_eq (s : Schema) (e : Entry) (element : String) :
    (e.fields s).get? element
      = ((s.properties e.entityType.name).reverse.find? fun p =>
          e.puts p && p.element = element).bind fun p => e.current.get? p.name := by
  -- fields are insertions of the properties that put something, so the last one counts
  have hfields : e.fields s
      = (s.properties e.entityType.name).foldl
        (fun (document : Document) p =>
          if e.puts p then document.insert p.element ((e.current.get? p.name).getD .null)
          else document) [] := by
    unfold fields
    congr 1
    funext document p
    rw [puts]
    cases e.current.get? p.name with
    | none => rw [Option.isSome_none, Bool.and_false, if_neg Bool.false_ne_true]
    | some v => rw [Option.isSome_some, Bool.and_true, Option.getD_some]
  rw [hfields, Table.get?_foldl_insert]
  cases hlast : (s.properties e.entityType.name).reverse.find? fun p =>
      e.puts p && p.element = element with
  | none => rfl
  | some p =>
    have hputs := List.find?_some hlast
    rw [puts, Bool.and_eq_true, Bool.and_eq_true] at hputs
    obtain ⟨v, hv⟩ := Option.isSome_iff_exists.mp hputs.1.2
    rw [Option.map_some, Option.bind_some, hv]
    rfl

/-- Properties provide what the fields hold. -/
theorem exists_property_of_get?_fields {element : String} {v : Value}
    (h : (e.fields s).get? element = some v) :
    ∃ name, e.Provides s later (.property name) element v := by
  rw [get?_fields_eq] at h
  obtain ⟨p, hlast, hcurrent⟩ := Option.bind_eq_some_iff.mp h
  have hp := List.mem_reverse.mp (List.mem_of_find?_eq_some hlast)
  have hputs := List.find?_some hlast
  rw [puts, Bool.and_eq_true, Bool.and_eq_true, decide_eq_true_eq] at hputs
  rw [← hputs.2]
  exact ⟨p.name, .property hp hputs.1.1 hcurrent⟩

/-- **A document holds nothing but what is provided.** -/
theorem exists_provides {element : String} {v : Value}
    (h : (e.document s later).get? element = some v) :
    ∃ content, e.Provides s later content element v := by
  rw [get?_document, get?_discriminate] at h
  cases hholder : e.holder? s later element with
  | some n =>
    rw [hholder] at h
    cases h
    -- what holds the element is an owning navigation that embeds something
    have hn := List.mem_reverse.mp (List.mem_of_find?_eq_some hholder)
    have hused := List.find?_some hholder
    rw [Bool.and_eq_true, decide_eq_true_eq] at hused
    rw [← hused.2]
    exact ⟨_, .embedded hn hused.1⟩
  | none =>
    rw [hholder] at h
    by_cases hdiscriminator : s.isPolymorphic e.entityType ∧ s.discriminatorElement = element
    · rw [if_pos hdiscriminator] at h
      cases h
      rw [← hdiscriminator.2]
      exact ⟨_, .discriminator hdiscriminator.1⟩
    · -- what is neither embedded nor the discriminator is a property's value
      rw [if_neg hdiscriminator] at h
      obtain ⟨name, hprovides⟩ := exists_property_of_get?_fields h
      exact ⟨_, hprovides⟩

/-- Where something is provided, a document holds something. -/
theorem Provides.isSome {content : Content} {element : String} {v : Value}
    (h : e.Provides s later content element v) :
    ((e.document s later).get? element).isSome := by
  rw [get?_document, get?_discriminate]
  cases hholder : e.holder? s later element with
  | some n => rfl
  | none =>
    cases h with
    | @embedded n hn hembeds =>
      -- the navigation itself would be found, as it is under this element
      have hnone := List.find?_eq_none.mp hholder n (List.mem_reverse.mpr hn)
      rw [hembeds] at hnone
      simp at hnone
    | discriminator hpolymorphic =>
      rw [if_pos ⟨hpolymorphic, rfl⟩]
      rfl
    | @property p _ hp hpersisted hcurrent =>
      -- the value may be that of a later property, but there is one
      split
      · rfl
      · have hputs : e.puts p := by rw [puts, hpersisted, hcurrent]; rfl
        have hlast : ((s.properties e.entityType.name).reverse.find? fun q =>
            e.puts q && q.element = p.element).isSome :=
          List.find?_isSome.mpr ⟨p, List.mem_reverse.mpr hp, by simp [hputs]⟩
        obtain ⟨q, hq⟩ := Option.isSome_iff_exists.mp hlast
        have hqputs := List.find?_some hq
        rw [puts, Bool.and_eq_true, Bool.and_eq_true] at hqputs
        rw [get?_fields_eq, hq]
        exact hqputs.1.2

/-- One content is provided with one value, where navigations to one target agree about how many
entities they embed. -/
theorem Provides.value_eq {content : Content} {element element' : String} {v v' : Value}
    (hsame : ∀ n ∈ s.navigations e.entityType.name, ∀ k ∈ s.navigations e.entityType.name,
      n.isOwnership → k.isOwnership → n.target = k.target → n.isCollection = k.isCollection)
    (h : e.Provides s later content element v) (h' : e.Provides s later content element' v') :
    v = v' := by
  cases h with
  | property _ _ hcurrent =>
    -- a property's value is found by its name, whichever property is meant
    generalize hname : Content.property _ = content at h'
    cases h' with
    | property _ _ hcurrent' =>
      rw [Content.property.inj hname] at hcurrent
      exact Option.some.inj (hcurrent.symm.trans hcurrent')
    | discriminator => cases hname
    | embedded => cases hname
  | discriminator =>
    cases h'
    rfl
  | @embedded n hn hembeds =>
    generalize htarget : Content.embedded _ = content at h'
    cases h' with
    | property => cases htarget
    | discriminator => cases htarget
    | @embedded k hk hkembeds =>
      have htarget := Content.embedded.inj htarget
      rw [embeds, Bool.and_eq_true] at hembeds hkembeds
      -- navigations to one target embed the same parts, and in the same form
      have hparts : e.partsOf s later n = e.partsOf s later k := by
        simp only [partsOf, leadsTo, htarget]
      rw [Entry.embedded, Entry.embedded, hparts, hsame n hn k hk hembeds.1 hkembeds.1 htarget]

/-- **A document holds just what is provided**, where different contents have different
elements. -/
theorem get?_document_iff (hapart : (s.contents e.entityType).Apart)
    (hsame : ∀ n ∈ s.navigations e.entityType.name, ∀ k ∈ s.navigations e.entityType.name,
      n.isOwnership → k.isOwnership → n.target = k.target → n.isCollection = k.isCollection)
    (element : String) (v : Value) :
    (e.document s later).get? element = some v
      ↔ ∃ content, e.Provides s later content element v := by
  refine ⟨exists_provides, ?_⟩
  rintro ⟨content, hprovides⟩
  obtain ⟨w, hw⟩ := Option.isSome_iff_exists.mp hprovides.isSome
  obtain ⟨content', hprovides'⟩ := exists_provides hw
  -- whatever stands under the element is the same content
  have hcontent : content = content' := hapart _ hprovides.mem _ hprovides'.mem rfl
  subst hcontent
  rw [hw, hprovides.value_eq hsame hprovides']

end Entry

/-! ## Elements as asked for -/

/-- **Contents are kept apart just if the author keeps them apart.** The stored properties of a
finished type, its discriminator and what it embeds are under the elements that the author of the
model asks for. So different ones have different elements if and only if they are asked to, and
then no document of the type loses any of them: it holds, under each element, just the values that
the members of its entry provide for it. -/
theorem contents_as_asked {m : Model} {naming : CollectionNaming} {s : Schema}
    (h : m.finish (Convention.defaults naming) = .ok s) {t : EntityType} (ht : t ∈ s.types) :
    ∃ asked ∈ m.types, asked.name = t.name
      ∧ s.contents t = m.contents asked
      ∧ ((s.contents t).Apart ↔ (m.contents asked).Apart)
      ∧ ((m.contents asked).Apart → ∀ changes : ChangeSet, changes.Tracked s →
        ∀ e ∈ changes.entries, e.entityType = t →
          ∃ document, changes.compose s e.id = .ok document
            ∧ ∀ element v, document.get? element = some v
              ↔ ∃ content, e.Provides s (changes.layout s .nothing) content element v) := by
  rw [Model.finish_defaults h] at ht
  obtain ⟨asked, hasked, rfl⟩ := List.mem_map.mp ht
  have hcontents := Model.contents_of_finish h asked
  refine ⟨asked, hasked, (m.finished_name naming asked).symm, hcontents, by rw [hcontents], ?_⟩
  -- the author's elements are those of the schema, so that contents are apart there too
  intro hapart changes hchanges e he hetype
  have hentry := hchanges.entry?_id he
  have hknows := (Model.finish_ownsTargets h).knowsTargets
  refine ⟨_, ChangeSet.compose_eq_documentOf hknows hentry, ?_⟩
  intro element v
  rw [hchanges.documentOf_eq hentry, Given.nothing, Option.getD_none]
  refine Entry.get?_document_iff ?_ ?_ element v
  · rw [hetype, hcontents]
    exact hapart
  · intro n hn k hk hown hkown htarget
    rw [Model.navigations_of_finish h] at hn hk
    exact congrArg Ownership.isCollection (Model.ownershipOf_eq h hn hk hown hkown htarget)

/-- What a family is made of is kept apart. -/
theorem contents_as_asked_family :
    householdModel.finish (Convention.defaults .typeName) = .ok household
      ∧ newFamily.entityType ∈ household.types
      ∧ ∃ document, householdChanges.compose household newFamily.id = .ok document
        ∧ ∀ element v, document.get? element = some v
          ↔ ∃ content, newFamily.Provides household
            (householdChanges.layout household .nothing) content element v := by
  have hfamily : newFamily.entityType ∈ household.types := List.get_mem _ _
  refine ⟨finish_householdModel, hfamily, ?_⟩
  obtain ⟨asked, hasked, hname, _, hapart, hholds⟩ :=
    contents_as_asked finish_householdModel hfamily
  exact hholds (hapart.mp (by decide)) householdChanges tracked_householdChanges newFamily
    (by decide) rfl

/-- Notes whose title and body are both stored as their text. -/
def noteModel : Model where
  types := [
    { name := "Note"
      properties := [⟨"Id", "Note", .int32, none, false, false, none⟩,
        ⟨"Title", "Note", .string, some "text", false, false, none⟩,
        ⟨"Body", "Note", .string, some "text", false, false, none⟩] }]

/-- The finished type of notes. -/
def note : EntityType where
  name := "Note"
  collection := some "Note"
  discriminatorValue := some "Note"
  key := some ["Id"]
  properties := [⟨"Id", "Note", .int32, some "_id", false, false, some .onAdd⟩,
    ⟨"Title", "Note", .string, some "text", false, false, none⟩,
    ⟨"Body", "Note", .string, some "text", false, false, none⟩]

/-- The schema of notes. -/
def noted : Schema where
  types := [note]
  discriminatorElement := "_t"

/-- A new note. -/
def newNote : Entry :=
  ⟨0, note, .added, [("Body", .str "Buy bread"), ("Id", .int 1), ("Title", .str "Monday")], [],
    none⟩

/-- Two properties of notes have the same element, and the document of a note has lost its
title. -/
theorem title_lost :
    noteModel.finish (Convention.defaults .typeName) = .ok noted
      ∧ note ∈ noted.types
      ∧ ¬ (noted.contents note).Apart
      ∧ ChangeSet.compose noted ⟨[newNote]⟩ 0
        = .ok [("_id", .int 1), ("text", .str "Buy bread")] := by
  exact ⟨rfl, List.mem_singleton.mpr rfl, by decide, rfl⟩

end Odm
