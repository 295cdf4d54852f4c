import Odm.Proofs.Update.Layout

/-!
# Edits of change sets

A change set is made by edits: entities are tracked, with or without an owner, states and values
are changed, and changes are accepted. An edit changes the states and values of entries, but never
where an entry comes from: its id, its type and its owner. At most it adds one entry, whose id is
the next one and whose owner, if it has one, is an entry already.

So in every change set that edits make, ids are positions and owners come before what they own.
-/

namespace Odm

/-- Where an entry comes from. -/
structure Origin where
  id : Nat
  entityType : EntityType
  owner : Option Nat
  deriving DecidableEq

def Entry.origin (e : Entry) : Origin := ⟨e.id, e.entityType, e.owner⟩

namespace ChangeSet

def origins (changes : ChangeSet) : List Origin := changes.entries.map Entry.origin

/-- A change that can be made to a change set. -/
inductive Edit where
  | track (t : EntityType) (state : EntityState) (values : Document)
  | trackOwned (owner : Nat) (t : EntityType) (state : EntityState) (values : Document)
  | setState (id : Nat) (state : EntityState)
  | setValue (id : Nat) (property : String) (v : Value)
  | accept (id : Nat)
  | acceptAll

/-- The type of the entity that is tracked. -/
def Edit.entityType? : Edit → Option EntityType
  | .track t _ _ | .trackOwned _ t _ _ => some t
  | .setState _ _ | .setValue _ _ _ | .accept _ | .acceptAll => none

/-- The change set after one edit. An owner that is no entry leaves it as it is. -/
def edit (changes : ChangeSet) : Edit → ChangeSet
  | .track t state values => (changes.track t state values).2
  | .trackOwned owner t state values =>
    match changes.trackOwned owner t state values with
    | .ok (_, changes) => changes
    | .error _ => changes
  | .setState id state => changes.modify id (·.setState state)
  | .setValue id property v => changes.modify id (·.setValue property v)
  | .accept id => changes.modify id Entry.accept
  | .acceptAll => changes.acceptAll

/-- The change set that some edits make. -/
def made (edits : List Edit) : ChangeSet := edits.foldl edit {}

/-! ## What an edit does -/

theorem origins_append (changes : ChangeSet) (t : EntityType) (state : EntityState)
    (values : Document) (owner : Option Nat) :
    (changes.append t state values owner).origins
      = changes.origins ++ [⟨changes.count, t, owner⟩] := List.map_append

theorem origins_modify (changes : ChangeSet) (id : Nat) {f : Entry → Entry}
    (hf : ∀ e, (f e).origin = e.origin) : (changes.modify id f).origins = changes.origins := by
  refine List.ext_getElem? fun i => ?_
  rw [origins, origins, modify, List.getElem?_map, List.getElem?_map, List.getElem?_modify]
  cases changes.entries[i]? with
  | none => rfl
  | some e =>
    rw [Option.map_eq_map, Option.map_some, Option.map_some, Option.map_some]
    split
    · rw [hf]
    · rfl

theorem origins_acceptAll (changes : ChangeSet) : changes.acceptAll.origins = changes.origins := by
  rw [origins, acceptAll, List.map_map]
  rfl

/-- One more entry: its id is the next one, and its owner is an entry already. -/
structure Adds (changes : ChangeSet) (added : Origin) : Prop where
  id : added.id = changes.count
  owner : ∀ owner, added.owner = some owner → owner < changes.count

/-- **An edit adds at most one entry**, and changes no origin. -/
theorem origins_edit (changes : ChangeSet) (edit : Edit) :
    (changes.edit edit).origins = changes.origins
      ∨ ∃ added, changes.Adds added ∧ edit.entityType? = some added.entityType
        ∧ (changes.edit edit).origins = changes.origins ++ [added] := by
  cases edit with
  | track t state values =>
    exact .inr ⟨⟨changes.count, t, none⟩, ⟨rfl, nofun⟩, rfl, origins_append ..⟩
  | trackOwned owner t state values =>
    rw [ChangeSet.edit, trackOwned, ChangeSet.entry]
    -- only tracking adds an entry, and with an owner only if that is an entry
    cases he : changes.entry? owner with
    | none => exact .inl rfl
    | some e =>
      refine .inr ⟨⟨changes.count, t, some owner⟩, ⟨rfl, ?_⟩, rfl, origins_append ..⟩
      rintro _ ⟨⟩
      exact (List.getElem?_eq_some_iff.mp he).1
  | setState id state => exact .inl (origins_modify changes id fun _ => rfl)
  | setValue id property v => exact .inl (origins_modify changes id fun _ => rfl)
  | accept id => exact .inl (origins_modify changes id fun _ => rfl)
  | acceptAll => exact .inl (origins_acceptAll changes)

/-! ## What edits make -/

variable {changes changes' : ChangeSet} {admits : EntityType → Prop}

/-- Ids are positions, owners come before what they own, and only some types have entries. -/
structure Ordered (admits : EntityType → Prop) (changes : ChangeSet) : Prop where
  id : ∀ (i : Nat) (o : Origin), changes.origins[i]? = some o → o.id = i
  owner : ∀ o ∈ changes.origins, ∀ owner, o.owner = some owner → owner < o.id
  entityType : ∀ o ∈ changes.origins, admits o.entityType

theorem ordered_empty : Ordered admits {} where
  id _ _ ho := nomatch ho
  owner _ ho := nomatch ho
  entityType _ ho := nomatch ho

theorem Ordered.congr (h : changes.Ordered admits) (hsame : changes'.origins = changes.origins) :
    changes'.Ordered admits := by
  refine ⟨?_, ?_, ?_⟩
  · rw [hsame]
    exact h.id
  · rw [hsame]
    exact h.owner
  · rw [hsame]
    exact h.entityType

/-- One more entry keeps the order. -/
theorem Ordered.add (h : changes.Ordered admits) {added : Origin} (hadds : changes.Adds added)
    (hadmits : admits added.entityType) (hadded : changes'.origins = changes.origins ++ [added]) :
    changes'.Ordered admits := by
  have hlength : changes.origins.length = changes.count := List.length_map _
  refine ⟨?_, ?_, ?_⟩
  · intro i o ho
    rw [hadded] at ho
    -- the id is that of an entry from before, that of the new one, or of none
    rcases Nat.lt_trichotomy i changes.origins.length with hi | rfl | hi
    · rw [List.getElem?_append_left hi] at ho
      exact h.id i o ho
    · rw [List.getElem?_concat_length] at ho
      rw [← Option.some.inj ho, hadds.id, hlength]
    · rw [List.getElem?_eq_none (by rw [List.length_append]; exact hi)] at ho
      cases ho
  · intro o ho owner howner
    rw [hadded] at ho
    rcases List.mem_append.mp ho with ho | ho
    · exact h.owner o ho owner howner
    · -- the owner of the new entry is an entry from before
      cases List.mem_singleton.mp ho
      rw [hadds.id]
      exact hadds.owner owner howner
  · intro o ho
    rw [hadded] at ho
    rcases List.mem_append.mp ho with ho | ho
    · exact h.entityType o ho
    · cases List.mem_singleton.mp ho
      exact hadmits

/-- **Every edit keeps the order.** -/
theorem Ordered.edit (h : changes.Ordered admits) {edit : Edit}
    (hadmits : ∀ t ∈ edit.entityType?, admits t) :
    (changes.edit edit).Ordered admits := by
  rcases origins_edit changes edit with hsame | ⟨added, hadds, ht, hadded⟩
  · exact h.congr hsame
  · exact h.add hadds (hadmits _ ht) hadded

/-- **Change sets that edits make are ordered.** -/
theorem ordered_made {edits : List Edit}
    (hadmits : ∀ edit ∈ edits, ∀ t ∈ edit.entityType?, admits t) :
    (made edits).Ordered admits := by
  suffices h : ∀ changes : ChangeSet, changes.Ordered admits →
      (edits.foldl ChangeSet.edit changes).Ordered admits from h {} ordered_empty
  induction edits with
  | nil => exact fun _ h => h
  | cons edit rest ih =>
    obtain ⟨hfirst, hrest⟩ := List.forall_mem_cons.mp hadmits
    exact fun changes h => ih hrest _ (h.edit hfirst)

namespace Ordered

theorem numbered (h : changes.Ordered admits) : changes.Numbered := by
  intro i e he
  refine h.id i e.origin ?_
  rw [origins, List.getElem?_map, show changes.entries[i]? = some e from he]
  rfl

theorem owner_lt (h : changes.Ordered admits) {e : Entry} (he : e ∈ changes.entries)
    {owner : Nat} (howner : e.owner = some owner) : owner < e.id :=
  h.owner e.origin (List.mem_map_of_mem he) owner howner

theorem owner_lt_of_entry? (h : changes.Ordered admits) {id owner : Nat} {e : Entry}
    (he : changes.entry? id = some e) (howner : e.owner = some owner) : owner < id := by
  have hlt := h.owner_lt (List.mem_of_getElem? he) howner
  rwa [h.numbered id e he] at hlt

/-- With types of the schema only, the change set is tracked for it. -/
theorem tracked {s : Schema} (h : changes.Ordered fun t => s.find? t.name = some t) :
    changes.Tracked s where
  id := h.numbered
  owner _ he _ howner := h.owner_lt he howner
  entityType e he := h.entityType e.origin (List.mem_map_of_mem he)

end Ordered

end ChangeSet

end Odm
