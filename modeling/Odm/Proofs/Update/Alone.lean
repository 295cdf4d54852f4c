import Odm.Proofs.Update.Contents
import Odm.Proofs.Update.Element

/-!
# Properties alone under their elements

A property is *alone* under its element when nothing else that documents of its type contain is
stored there. It does not matter whether the other contents are there in a given document. Then the
document of an entry holds under the element what the entry has for the property: its current value,
or nothing.

Filters look for the key and for the stored concurrency tokens of a type, the *identifying*
properties. A filter is made of nothing but their baseline values, so a document matches it if it
holds the baseline value of each of them.
-/

namespace Odm

/-- Under the element of a property there is nothing but properties of its name, which have the
same value. -/
def Contents.Alone (contents : Contents) (p : Property) : Prop :=
  ∀ content ∈ contents, content.2 = p.element → content.1 = .property p.name

instance (contents : Contents) (p : Property) : Decidable (contents.Alone p) :=
  inferInstanceAs (Decidable
    (∀ content ∈ contents, content.2 = p.element → content.1 = .property p.name))

/-! ## Documents -/

section Documents

variable {s : Schema} {e : Entry} {p : Property}

/-- What is provided under the element of a property that is alone is its value. -/
theorem Entry.Provides.value_of_alone {later : Documents} {content : Content} {element : String}
    {v : Value} (h : e.Provides s later content element v) (helement : element = p.element)
    (halone : (s.contents e.entityType).Alone p) : e.current.get? p.name = some v := by
  have hcontent := halone _ h.mem helement
  cases h with
  | property _ _ hcurrent =>
    rw [← Content.property.inj hcontent]
    exact hcurrent
  | discriminator => cases hcontent
  | embedded => cases hcontent

/-- **A document holds the current value of a property that is alone under its element**, and
nothing if there is none. -/
theorem Entry.get?_document_of_alone {later : Documents}
    (hp : p ∈ s.properties e.entityType.name) (hpersisted : p.isPersisted)
    (halone : (s.contents e.entityType).Alone p) :
    (e.document s later).get? p.element = e.current.get? p.name := by
  cases hheld : (e.document s later).get? p.element with
  | some v =>
    obtain ⟨content, hprovides⟩ := Entry.exists_provides hheld
    exact (hprovides.value_of_alone rfl halone).symm
  | none =>
    cases hcurrent : e.current.get? p.name with
    | none => rfl
    | some v =>
      have hprovides : e.Provides s later (.property p.name) p.element v :=
        .property hp hpersisted hcurrent
      have hsome := hprovides.isSome
      rw [hheld] at hsome
      cases hsome

/-- A composed document is that of its entry. -/
theorem ChangeSet.exists_document {changes : ChangeSet} {id : Nat} {document : Document}
    (hs : s.KnowsTargets) (he : changes.entry? id = some e)
    (h : changes.compose s id = .ok document) : ∃ later, document = e.document s later := by
  have hentry : changes.entries[id]? = some e := he
  rw [compose_eq_documentOf hs he, documentOf, layout, getElem?_documents, hentry] at h
  exact ⟨_, (Except.ok.inj h).symm⟩

end Documents

/-! ## Filters -/

/-- The properties by which stored documents of a type are found: its key, and the concurrency
tokens that are stored. -/
def Schema.identifying (s : Schema) (t : EntityType) : List Property :=
  s.keyProperties t.name ++ WritePlan.tokens s ⟨t, .replace⟩

theorem Schema.mem_properties_of_identifying {s : Schema} {t : EntityType} {p : Property}
    (h : p ∈ s.identifying t) : p ∈ s.properties t.name := by
  rcases List.mem_append.mp h with hkey | htoken
  · exact mem_properties_of_mem_keyProperties hkey
  · exact (List.mem_filter.mp htoken).1

namespace Entry

variable {s : Schema} {e : Entry}

/-- Where keys have values, a filter is made like one of concurrency tokens. -/
theorem filter_eq_foldl (hkey : s.keyProperties e.entityType.name ≠ [])
    (hvalues : ∀ p ∈ s.keyProperties e.entityType.name,
      ∃ v, e.baselineValue? p.name = some v ∧ v ≠ .null) :
    e.filter s = .ok ((s.identifying e.entityType).foldl (WritePlan.addToken e) []) := by
  have hkeys : (s.keyProperties e.entityType.name).foldlM
      (WritePlan.addKey ⟨e.entityType, .replace⟩ e) []
      = .ok ((s.keyProperties e.entityType.name).foldl (WritePlan.addToken e) []) := by
    refine Except.foldlM_eq_ok fun p hp filter => ?_
    obtain ⟨v, hv, hset⟩ := hvalues p hp
    rw [WritePlan.addKey, WritePlan.addToken, hv]
    cases v with
    | null => exact absurd rfl hset
    | _ => rfl
  rw [filter, WritePlan.filter]
  dsimp only
  rw [if_neg (by simpa using hkey), hkeys, Schema.identifying, List.foldl_append]
  rfl

/-- A filter that was made like this has nothing but baseline values. -/
theorem mem_foldl_addToken {ps : List Property} : ∀ {filter : Document} {entry : String × Value},
    entry ∈ ps.foldl (WritePlan.addToken e) filter →
      entry ∈ filter ∨ ∃ p ∈ ps, entry = (p.element, (e.baselineValue? p.name).getD .null) := by
  induction ps with
  | nil => exact fun h => .inl h
  | cons p rest ih =>
    intro filter entry h
    rcases ih h with hfirst | ⟨q, hq, heq⟩
    · rcases Table.mem_insert hfirst with heq | hfilter
      · exact .inr ⟨p, List.mem_cons_self, heq⟩
      · exact .inl hfilter
    · exact .inr ⟨q, List.mem_cons_of_mem _ hq, heq⟩

/-- **A filter is matched by what holds the baseline values** of all identifying properties. -/
theorem exists_filter (hkey : s.keyProperties e.entityType.name ≠ [])
    (hvalues : ∀ p ∈ s.keyProperties e.entityType.name,
      ∃ v, e.baselineValue? p.name = some v ∧ v ≠ .null) :
    ∃ filter, e.filter s = .ok filter
      ∧ ∀ document : Document, (∀ p ∈ s.identifying e.entityType,
          document.get? p.element = e.baselineValue? p.name) → document.Matches filter := by
  refine ⟨_, filter_eq_foldl hkey hvalues, ?_⟩
  intro document hholds entry hentry
  rcases mem_foldl_addToken hentry with hnil | ⟨p, hp, rfl⟩
  · cases hnil
  · rw [Document.fieldOrNull, hholds p hp]

end Entry

end Odm
