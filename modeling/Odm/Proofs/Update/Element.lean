import Odm.Proofs.Schema.Hierarchy
import Odm.Proofs.Table
import Odm.Proofs.Update.Turn

/-!
# The element of a property

When no other property, no discriminator and no embedded object of a hierarchy uses the element
of a property, the element can be followed through everything that is made of an entry. Its
document has there the current value of the property, and its filter the baseline value.

A property whose values are generated on every write gets a new one at each turn that makes a
document. The values that are drawn at a turn are listed by `ValueSource.draws`, so the current
value of such a property afterwards is one of those drawn for a property of its name.
-/

namespace Odm

/-- Nothing else in the documents of a hierarchy is stored under the element of the property. -/
structure Exclusive (s : Schema) (root : EntityType) (p : Property) : Prop where
  property : ∀ t, s.find? t.name = some t → s.root? t.name = some root →
    ∀ q ∈ s.properties t.name, q.element = p.element → q = p
  discriminator : ∀ t, s.find? t.name = some t → s.root? t.name = some root →
    s.isPolymorphic t → s.discriminatorElement ≠ p.element
  embedded : ∀ t, s.find? t.name = some t → s.root? t.name = some root →
    ∀ n ∈ s.navigations t.name, n.isOwnership → ∀ target, s.find? n.target = some target →
      target.embeddedName?.getD n.name ≠ p.element

/-! ## The last one to write -/

section Writes

variable {p : Property} {v : Value}

/-- **Steps that each write one property's element** leave a value under an element, if it is
written by one of them or was there before, and no step for another property writes it. -/
theorem get?_foldlM_of_writes {ε : Type} {step : Document → Property → Except ε Document}
    (hself : ∀ document document', step document p = .ok document' →
      document'.get? p.element = some v)
    (hother : ∀ q document document', q.element ≠ p.element → step document q = .ok document' →
      document'.get? p.element = document.get? p.element) :
    ∀ {properties : List Property} {document document' : Document},
      (∀ q ∈ properties, q.element = p.element → q = p) →
      p ∈ properties ∨ document.get? p.element = some v →
      properties.foldlM step document = .ok document' →
      document'.get? p.element = some v := by
  intro properties
  induction properties with
  | nil =>
    intro document document' _ hp h
    cases Except.pure_eq_ok_iff.mp h
    exact hp.resolve_left nofun
  | cons q rest ih =>
    intro document document' honly hp h
    obtain ⟨hq, hrest⟩ := List.forall_mem_cons.mp honly
    rw [List.foldlM_cons] at h
    obtain ⟨document₁, hfirst, h⟩ := Except.bind_eq_ok_iff.mp h
    refine ih hrest ?_ h
    by_cases hqp : q = p
    · -- from here on the value is there, whether or not it is written again
      subst hqp
      exact .inr (hself _ _ hfirst)
    · rcases hp with hmem | hdocument
      · exact .inl ((List.mem_cons.mp hmem).resolve_left (Ne.symm hqp))
      · have hne : q.element ≠ p.element := fun heq => hqp (hq heq)
        exact .inr (by rw [hother q _ _ hne hfirst, hdocument])

theorem get?_foldl_of_writes {step : Document → Property → Document}
    (hself : ∀ document, (step document p).get? p.element = some v)
    (hother : ∀ q document, q.element ≠ p.element →
      (step document q).get? p.element = document.get? p.element)
    {properties : List Property} {document : Document}
    (honly : ∀ q ∈ properties, q.element = p.element → q = p)
    (hp : p ∈ properties ∨ document.get? p.element = some v) :
    (properties.foldl step document).get? p.element = some v := by
  have hfold : properties.foldlM (fun d q => (.ok (step d q) : Except Unit Document)) document
      = .ok (properties.foldl step document) := List.foldlM_pure
  refine get?_foldlM_of_writes ?_ ?_ honly hp hfold
  · intro d d' h
    cases h
    exact hself d
  · intro q d d' hne h
    cases h
    exact hother q d hne

end Writes

/-! ## Documents -/

namespace Entry

variable {s : Schema} {e : Entry} {p : Property} {v : Value}

/-- The current value of a stored property is in the fields of an entry. -/
theorem get?_fields (hcurrent : e.current.get? p.name = some v)
    (hpersisted : p.isPersisted)
    (honly : ∀ q ∈ s.properties e.entityType.name, q.element = p.element → q = p)
    (hmem : p ∈ s.properties e.entityType.name) :
    (e.fields s).get? p.element = some v := by
  unfold fields
  refine get?_foldl_of_writes ?_ ?_ honly (.inl hmem)
  · intro document
    rw [hcurrent]
    dsimp only
    rw [if_pos hpersisted, Table.get?_insert_self]
  · intro q document hne
    split
    · split
      · exact Table.get?_insert_ne _ hne.symm _
      · rfl
    · rfl

theorem get?_embed {later : List Composed} {document document' : Document} {n : Navigation}
    {element : String}
    (hn : n.isOwnership → ∀ target, s.find? n.target = some target →
      target.embeddedName?.getD n.name ≠ element)
    (h : e.embed s later document n = .ok document') :
    document'.get? element = document.get? element := by
  unfold embed at h
  split at h
  · cases h
    rfl
  · rename_i hown
    obtain ⟨target, htarget, h⟩ := Except.bind_eq_ok_iff.mp h
    -- the insertion is under the target's name, which is not the element that is asked about
    have hne := hn (by simpa using hown) target
      (Catalog.entityType_eq_ok (Except.mapError_eq_ok_iff.mp htarget))
    dsimp only at h
    split at h
    · obtain ⟨items, _, h⟩ := Except.bind_eq_ok_iff.mp h
      split at h
      · cases Except.pure_eq_ok_iff.mp h
        rfl
      · cases Except.pure_eq_ok_iff.mp h
        exact Table.get?_insert_ne _ hne.symm _
    · split at h
      · cases Except.pure_eq_ok_iff.mp h
        rfl
      · obtain ⟨part, _, h⟩ := Except.bind_eq_ok_iff.mp h
        cases Except.pure_eq_ok_iff.mp h
        exact Table.get?_insert_ne _ hne.symm _

theorem get?_embed_foldlM {later : List Composed} {element : String} :
    ∀ {navigations : List Navigation} {document document' : Document},
      (∀ n ∈ navigations, n.isOwnership → ∀ target, s.find? n.target = some target →
        target.embeddedName?.getD n.name ≠ element) →
      navigations.foldlM (e.embed s later) document = .ok document' →
      document'.get? element = document.get? element := by
  intro navigations
  induction navigations with
  | nil =>
    intro document document' _ h
    cases Except.pure_eq_ok_iff.mp h
    rfl
  | cons n rest ih =>
    intro document document' hnavs h
    obtain ⟨hn, hrest⟩ := List.forall_mem_cons.mp hnavs
    rw [List.foldlM_cons] at h
    obtain ⟨document₁, hfirst, h⟩ := Except.bind_eq_ok_iff.mp h
    rw [ih hrest h, get?_embed hn hfirst]

/-- **A document has the current value of a property under its element**, if the element is
used by nothing else. -/
theorem get?_compose {root : EntityType} {later : List Composed} {document : Document}
    (hexclusive : Exclusive s root p) (htype : s.find? e.entityType.name = some e.entityType)
    (hroot : s.root? e.entityType.name = some root) (hmem : p ∈ root.properties)
    (hpersisted : p.isPersisted) (hcurrent : e.current.get? p.name = some v)
    (h : e.compose s later = .ok document) : document.get? p.element = some v := by
  -- embedded objects and the discriminator come after the fields, under other elements
  rw [get?_embed_foldlM (hexclusive.embedded _ htype hroot) h]
  have hfields : (e.fields s).get? p.element = some v :=
    get?_fields hcurrent hpersisted (hexclusive.property _ htype hroot)
      (Catalog.mem_properties_of_root? hroot hmem)
  rw [get?_discriminate, if_neg fun hsame =>
    hexclusive.discriminator _ htype hroot hsame.1 hsame.2, hfields]

end Entry

/-- A composed document is that of an entry of the change set. -/
theorem ChangeSet.compose_eq_ok {s : Schema} {changes : ChangeSet} {id : Nat}
    {document : Document} (h : changes.compose s id = .ok document) :
    ∃ e later, changes.entry? id = some e ∧ e.compose s later = .ok document := by
  -- the documents are listed with their entries, in the same places
  have hget : ∀ (entries : List Entry) (i : Nat) (composed : Composed),
      (composeEntries s entries)[i]? = some composed →
      ∃ e later, entries[i]? = some e ∧ composed = (e, e.compose s later) := by
    intro entries
    induction entries with
    | nil => intro i composed h; cases h
    | cons e rest ih =>
      intro i composed h
      cases i with
      | zero =>
        cases h
        exact ⟨e, composeEntries s rest, rfl, rfl⟩
      | succ i => exact ih i composed h
  unfold compose at h
  split at h
  · rename_i e document' hcomposed
    obtain ⟨e', later, he', heq⟩ := hget _ _ _ hcomposed
    cases heq
    exact ⟨e, later, he', h⟩
  · cases h

/-! ## Filters -/

theorem WritePlan.addKey_eq_ok {plan : WritePlan} {e : Entry} {filter filter' : Document}
    {q : Property} (h : plan.addKey e filter q = .ok filter') :
    ∃ w, e.baselineValue? q.name = some w ∧ filter' = filter.insert q.element w := by
  unfold addKey at h
  split at h
  · cases h
  · cases h
  · rename_i w _ hw
    cases h
    exact ⟨w, hw, rfl⟩

theorem Schema.mem_properties_of_mem_keyProperties {s : Schema} {name : String} {p : Property}
    (h : p ∈ s.keyProperties name) : p ∈ s.properties name := by
  unfold keyProperties at h
  split at h
  · cases h
  · rename_i root hroot
    obtain ⟨key, _, hkey⟩ := List.mem_filterMap.mp h
    exact Catalog.mem_properties_of_root? hroot (List.mem_of_find?_eq_some hkey)

/-- **A filter has the baseline values of keys and tokens under their elements.** -/
theorem Entry.get?_filter {s : Schema} {root : EntityType} {e : Entry} {p : Property} {v : Value}
    {filter : Document} (hexclusive : Exclusive s root p)
    (htype : s.find? e.entityType.name = some e.entityType)
    (hroot : s.root? e.entityType.name = some root)
    (hp : p ∈ s.keyProperties e.entityType.name
      ∨ p ∈ s.properties e.entityType.name ∧ p.isConcurrencyToken ∧ p.isPersisted)
    (hbaseline : e.baselineValue? p.name = some v) (h : e.filter s = .ok filter) :
    filter.get? p.element = some v := by
  have honly := hexclusive.property _ htype hroot
  unfold Entry.filter WritePlan.filter at h
  dsimp only at h
  split at h
  · cases h
  obtain ⟨keys, hkeys, h⟩ := Except.bind_eq_ok_iff.mp h
  cases Except.pure_eq_ok_iff.mp h
  -- tokens are added after keys, so a token that is a key as well is written twice, alike
  refine get?_foldl_of_writes ?_ ?_ (fun q hq => honly q (List.mem_filter.mp hq).1) ?_
  · intro document
    rw [WritePlan.addToken, Table.get?_insert_self, hbaseline, Option.getD_some]
  · intro q document hne
    exact Table.get?_insert_ne _ hne.symm _
  · rcases hp with hkey | ⟨hmem, htoken, hpersisted⟩
    · refine .inr (get?_foldlM_of_writes ?_ ?_ ?_ (.inl hkey) hkeys)
      · intro document document' hadd
        obtain ⟨w, hw, rfl⟩ := WritePlan.addKey_eq_ok hadd
        cases hw.symm.trans hbaseline
        exact Table.get?_insert_self _ _ _
      · intro q document document' hne hadd
        obtain ⟨w, _, rfl⟩ := WritePlan.addKey_eq_ok hadd
        exact Table.get?_insert_ne _ hne.symm _
      · intro q hq
        exact honly q (Schema.mem_properties_of_mem_keyProperties hq)
    · exact .inl (List.mem_filter.mpr ⟨hmem, by simp [htoken, hpersisted]⟩)

/-! ## Values that are drawn -/

namespace ValueSource

/-- The values drawn while an entry is filled, with the properties they are for. -/
def draws (source : ValueSource) (adding : Bool) (e : Entry) :
    List Property → List (Property × Value)
  | [] => []
  | p :: rest =>
    if e.needsValue adding p then
      match source.next p with
      | .error _ => []
      | .ok (v, source) => (p, v) :: source.draws adding (e.setValue p.name v) rest
    else source.draws adding e rest

/-- A value is one of those drawn for a property of its name, or it is still what it was. -/
theorem get?_fill {adding : Bool} (name : String) :
    ∀ {properties : List Property} {source source' : ValueSource} {e e' : Entry},
      source.fill adding e properties = (.ok (), e', source') →
      (∃ p v, (p, v) ∈ source.draws adding e properties ∧ p.name = name
        ∧ e'.current.get? name = some v)
      ∨ (∀ p v, (p, v) ∈ source.draws adding e properties → p.name ≠ name)
        ∧ e'.current.get? name = e.current.get? name := by
  intro properties
  induction properties with
  | nil =>
    intro source source' e e' h
    cases h
    exact .inr ⟨nofun, rfl⟩
  | cons q rest ih =>
    intro source source' e e' h
    rw [fill] at h
    rw [draws]
    split at h
    · rename_i hneeds
      rw [if_pos hneeds]
      cases hnext : source.next q with
      | error err =>
        rw [hnext] at h
        cases h
      | ok result =>
        obtain ⟨w, source₁⟩ := result
        rw [hnext] at h
        dsimp only at h ⊢
        -- Two properties may have one name. Then the value is the one drawn last.
        rcases ih h with ⟨p, v, hmem, hname, hget⟩ | ⟨hnone, hget⟩
        · exact .inl ⟨p, v, List.mem_cons_of_mem _ hmem, hname, hget⟩
        · by_cases hq : q.name = name
          · subst hq
            refine .inl ⟨q, w, List.mem_cons_self, rfl, ?_⟩
            rw [hget, Entry.setValue, Table.get?_insert_self]
          · refine .inr ⟨?_, ?_⟩
            · intro p v hmem
              rcases List.mem_cons.mp hmem with heq | hmem
              · cases heq
                exact hq
              · exact hnone p v hmem
            · rw [hget, Entry.setValue, Table.get?_insert_ne _ (Ne.symm hq)]
    · rename_i hneeds
      rw [if_neg hneeds]
      exact ih h

/-- A property that is generated on every write is drawn for. -/
theorem mem_draws {adding : Bool} {p : Property} (hp : p.generation = .onAddOrUpdate) :
    ∀ {properties : List Property} {source source' : ValueSource} {e e' : Entry},
      source.fill adding e properties = (.ok (), e', source') → p ∈ properties →
      ∃ v, (p, v) ∈ source.draws adding e properties := by
  intro properties
  induction properties with
  | nil => intro source source' e e' _ hmem; cases hmem
  | cons q rest ih =>
    intro source source' e e' h hmem
    rw [fill] at h
    rw [draws]
    split at h
    · -- for every property either a value is drawn, or there is one already
      rename_i hneeds
      rw [if_pos hneeds]
      cases hnext : source.next q with
      | error err =>
        rw [hnext] at h
        cases h
      | ok result =>
        obtain ⟨w, source₁⟩ := result
        rw [hnext] at h
        dsimp only at h ⊢
        rcases List.mem_cons.mp hmem with rfl | hmem
        · exact ⟨w, List.mem_cons_self⟩
        · obtain ⟨v, hv⟩ := ih h hmem
          exact ⟨v, List.mem_cons_of_mem _ hv⟩
    · rename_i hneeds
      rw [if_neg hneeds]
      -- a property of this generation always needs a value
      rcases List.mem_cons.mp hmem with rfl | hmem
      · exact absurd (by rw [Entry.needsValue, hp]) hneeds
      · exact ih h hmem

/-- **What is generated on every write is drawn.** After an entry has been filled, the value of
such a property is one of those drawn for a property of its name. -/
theorem exists_draw {adding : Bool} {p : Property} {properties : List Property}
    {source source' : ValueSource} {e e' : Entry} (hp : p.generation = .onAddOrUpdate)
    (hmem : p ∈ properties) (h : source.fill adding e properties = (.ok (), e', source')) :
    ∃ q v, (q, v) ∈ source.draws adding e properties ∧ q.name = p.name
      ∧ e'.current.get? p.name = some v := by
  rcases get?_fill p.name h with hdrawn | ⟨hnone, _⟩
  · exact hdrawn
  · obtain ⟨v, hv⟩ := mem_draws hp h hmem
    exact absurd rfl (hnone p v hv)

end ValueSource

end Odm
