import Odm.Proofs.Save.Preparation

/-!
# Saves are all or nothing

A save generates values for the roots before it knows whether it will get through. Those values
stay, and nothing else does: an entry that is *refilled* is as before but for the properties whose
values are generated in its state, and an entry that is not the root of a pending one is not even
that. So an error leaves everything as pending as it was. If the error was met before the store was
asked for anything, then the store is as it was too.

A save that gets through accepts the whole change set. Then there is nothing left for the next one.
-/

namespace Odm

/-! ## Refilled entries -/

namespace Entry

/-- The property gets a value when the entry is written. -/
def Generates (e : Entry) (p : Property) : Prop :=
  match p.generation with
  | .never => False
  | .onAdd => e.state = .added ∧ (e.current.get? p.name).all Value.isUnset
  | .onAddOrUpdate => e.state = .added ∨ e.state = .modified ∨ e.state = .unchanged

/-- The entry is as before but for values of properties that get one. -/
structure Refilled (properties : List Property) (e e' : Entry) : Prop where
  outline : e'.outline = e.outline
  current : ∀ name, e'.current.get? name ≠ e.current.get? name →
    ∃ p ∈ properties, p.name = name ∧ e.Generates p

variable {properties : List Property} {e e' e'' : Entry}

theorem Refilled.refl (properties : List Property) (e : Entry) : Refilled properties e e where
  outline := rfl
  current _ h := absurd rfl h

/-- A property that gets a value later either gets one now or has a name that got one before. -/
theorem Generates.of_same {p : Property} (h : e'.Generates p) (hstate : e'.state = e.state)
    (hcurrent : e'.current.get? p.name = e.current.get? p.name) : e.Generates p := by
  unfold Generates at h ⊢
  rwa [hstate, hcurrent] at h

theorem Refilled.trans (h : Refilled properties e e') (h' : Refilled properties e' e'') :
    Refilled properties e e'' := by
  refine ⟨h'.outline.trans h.outline, ?_⟩
  intro name hname
  by_cases hbefore : e'.current.get? name = e.current.get? name
  · -- the value changed later, so it was unset before if it was unset then
    rw [← hbefore] at hname
    obtain ⟨p, hp, rfl, hgenerates⟩ := h'.current name hname
    exact ⟨p, hp, rfl, hgenerates.of_same (state_of_outline h.outline) hbefore⟩
  · exact h.current name hbefore

theorem Refilled.setValue {p : Property} (hp : p ∈ properties) (hgenerates : e.Generates p)
    (v : Value) : Refilled properties e (e.setValue p.name v) := by
  refine ⟨rfl, ?_⟩
  intro name hname
  by_cases hsame : name = p.name
  · exact ⟨p, hp, hsame.symm, hgenerates⟩
  · have hother : (e.setValue p.name v).current.get? name = e.current.get? name :=
      Table.get?_insert_ne _ hsame v
    exact absurd hother hname

/-- What a plan is made for decides which values are needed. -/
theorem generates_of_needsValue {adding : Bool} {p : Property} (h : e.needsValue adding p)
    (hadding : adding → e.state = .added)
    (hwritten : e.state = .added ∨ e.state = .modified ∨ e.state = .unchanged) :
    e.Generates p := by
  unfold needsValue at h
  unfold Generates
  cases hgeneration : p.generation with
  | never =>
    rw [hgeneration] at h
    cases h
  | onAdd =>
    simp only [hgeneration, Bool.and_eq_true] at h
    exact ⟨hadding h.1, h.2⟩
  | onAddOrUpdate => exact hwritten

end Entry

/-- **Generating values refills an entry**, whether or not it succeeds. -/
theorem ValueSource.fill_refilled {adding : Bool} {properties rest : List Property} :
    ∀ {source : ValueSource} {e : Entry}, rest ⊆ properties → (adding → e.state = .added) →
      e.state = .added ∨ e.state = .modified ∨ e.state = .unchanged →
      e.Refilled properties (source.fill adding e rest).2.1 := by
  induction rest with
  | nil => exact fun _ _ _ => .refl properties _
  | cons p rest ih =>
    intro source e hrest hadding hwritten
    obtain ⟨hp, hrest⟩ := List.cons_subset.mp hrest
    rw [fill]
    split
    · -- a generator may fail halfway, and then the entry is as far as it got
      rename_i hneeds
      split
      · exact .refl properties e
      · rename_i v _ _
        have hgenerates := Entry.generates_of_needsValue hneeds hadding hwritten
        exact (Entry.Refilled.setValue hp hgenerates v).trans (ih hrest hadding hwritten)
    · exact ih hrest hadding hwritten

/-! ## Refilled change sets -/

namespace ChangeSet

/-- The change set is as before but for those entries of some ids that have been refilled. -/
structure Refilled (s : Schema) (ids : Nat → Prop) (changes changes' : ChangeSet) : Prop where
  outlines : changes'.outlines = changes.outlines
  entries : ∀ id e e', changes.entry? id = some e → changes'.entry? id = some e' →
    e' = e ∨ ids id ∧ e.Refilled (s.properties e.entityType.name) e'

/-- An entry that is the root of a pending one. -/
def HasPending (s : Schema) (changes : ChangeSet) (id : Nat) : Prop :=
  ∃ p ∈ changes.pending, changes.root s p = .ok id

variable {s : Schema} {ids : Nat → Prop} {changes changes' changes'' : ChangeSet}

theorem Refilled.refl (s : Schema) (ids : Nat → Prop) (changes : ChangeSet) :
    Refilled s ids changes changes where
  outlines := rfl
  entries id e e' he he' := by
    cases he.symm.trans he'
    exact .inl rfl

theorem Refilled.trans (h : Refilled s ids changes changes')
    (h' : Refilled s ids changes' changes'') : Refilled s ids changes changes'' := by
  refine ⟨h'.outlines.trans h.outlines, ?_⟩
  intro id e e'' he he''
  obtain ⟨e', he', _⟩ := entry?_of_outlines h'.outlines he''
  rcases h.entries id e e' he he' with rfl | ⟨hid, hfirst⟩
  · exact h'.entries id e' e'' he' he''
  · refine .inr ⟨hid, ?_⟩
    rcases h'.entries id e' e'' he' he'' with rfl | ⟨_, hlater⟩
    · exact hfirst
    · rw [Entry.entityType_of_outline hfirst.outline] at hlater
      exact hfirst.trans hlater

theorem Refilled.modify {id : Nat} {e e' : Entry} (hid : ids id)
    (he : changes.entry? id = some e) (h : e.Refilled (s.properties e.entityType.name) e') :
    Refilled s ids changes (changes.modify id fun _ => e') := by
  refine ⟨outlines_modify he h.outline, ?_⟩
  intro id' e₁ e₂ he₁ he₂
  by_cases hsame : id = id'
  · subst hsame
    cases he.symm.trans he₁
    rw [entry?_modify_self _ he] at he₂
    cases he₂
    exact .inr ⟨hid, h⟩
  · rw [entry?_modify_ne _ hsame, he₁] at he₂
    cases he₂
    exact .inl rfl

end ChangeSet

/-! ## Frames of a preparation -/

section Preparing

variable {s : Schema} {ids : Nat → Prop}

theorem EntityState.written_of_directiveKind? {state : EntityState} {kind : DirectiveKind}
    (h : state.directiveKind? = some kind) (hkind : kind ≠ .delete) :
    state = .added ∨ state = .modified ∨ state = .unchanged := by
  cases kind with
  | insert => exact .inl (directiveKind?_eq_insert h)
  | replace => exact .inr (directiveKind?_eq_replace h)
  | delete => exact absurd rfl hkind

theorem WritePlan.write_refilled {plan : WritePlan} {id : Nat} {changes : ChangeSet}
    {source : ValueSource} {e : Entry} (hid : ids id) (he : changes.entry? id = some e)
    (hplan : plan.IsFor e.entityType.name e.state) :
    changes.Refilled s ids (plan.write s id changes source).2.1 := by
  obtain ⟨hname, hkind⟩ := hplan
  unfold write
  split
  · exact .refl s ids changes
  · rename_i hdelete
    rw [he]
    refine .modify hid he ?_
    rw [hname]
    refine ValueSource.fill_refilled (List.Subset.refl _) ?_
      (EntityState.written_of_directiveKind? hkind hdelete)
    -- values are generated for an insert just if the entry is an added one
    intro hinsert
    rw [of_decide_eq_true hinsert] at hkind
    exact EntityState.directiveKind?_eq_insert hkind

theorem UnitOfWork.directive_refilled {unit : UnitOfWork} {id : Nat} (hid : ids id) :
    unit.changes.Refilled s ids (unit.directive s id).2.changes := by
  unfold directive
  split
  · exact .refl s ids _
  · rename_i e he
    unfold directiveAs
    split
    · exact .refl s ids _
    · rename_i plan planner hplan
      exact WritePlan.write_refilled hid (ChangeSet.entry_eq_ok he) (Planner.plan_isFor hplan)

theorem UnitOfWork.directives_refilled {roots : List Nat} (hroots : ∀ id ∈ roots, ids id) :
    ∀ unit : UnitOfWork, unit.changes.Refilled s ids (unit.directives s roots).2.changes := by
  induction roots with
  | nil => exact fun unit => .refl s ids unit.changes
  | cons id rest ih =>
    intro unit
    obtain ⟨hid, hrest⟩ := List.forall_mem_cons.mp hroots
    have hfirst : unit.changes.Refilled s ids (unit.directive s id).2.changes :=
      directive_refilled hid
    rw [directives]
    split
    · -- a turn that fails has refilled its own entry at most
      rename_i err unit' herr
      rwa [herr] at hfirst
    · rename_i d unit' hd
      rw [hd] at hfirst
      exact hfirst.trans (ih hrest unit')

theorem Database.prepareGroups_refilled {db : Database} {groups : ChangeSet.Groups}
    (hgroups : ∀ group ∈ groups, ∀ id ∈ group.2, ids id) : ∀ unit : UnitOfWork,
    unit.changes.Refilled db.schema ids (db.prepareGroups unit groups).2.changes := by
  induction groups with
  | nil => exact fun unit => .refl db.schema ids unit.changes
  | cons group rest ih =>
    intro unit
    obtain ⟨hroots, hrest⟩ := List.forall_mem_cons.mp hgroups
    have hfirst := UnitOfWork.directives_refilled (s := db.schema) hroots unit
    rw [prepareGroups]
    split
    · rename_i err unit' herr
      rwa [herr] at hfirst
    · rename_i ds unit' hds
      rw [hds] at hfirst
      exact hfirst.trans (ih hrest unit')

/-- **A preparation refills roots of pending entries**, whether or not it succeeds. -/
theorem Database.prepare_refilled (db : Database) (unit : UnitOfWork) :
    unit.changes.Refilled db.schema (unit.changes.HasPending db.schema)
      (db.prepare unit).2.changes := by
  unfold prepare
  split
  · exact .refl db.schema _ unit.changes
  · rename_i groups hgroups
    obtain ⟨roots, hroots, hgrouped⟩ := ChangeSet.groups_grouped hgroups
    refine prepareGroups_refilled ?_ unit
    intro group hgroup id hid
    have hget := Table.get?_of_mem hgrouped.sorted hgroup
    exact ChangeSet.exists_pending hroots (hgrouped.sound _ _ hget id hid).1

end Preparing

/-! ## Nothing left to save -/

theorem ChangeSet.baseline_acceptAll (changes : ChangeSet) :
    ∀ e ∈ changes.acceptAll.entries, e.baseline = e.current := by
  intro e he
  obtain ⟨e', _, rfl⟩ := List.mem_map.mp he
  rfl

/-- To accept twice is to accept once. -/
theorem ChangeSet.acceptAll_acceptAll (changes : ChangeSet) :
    changes.acceptAll.acceptAll = changes.acceptAll := by
  have htwice : ∀ e : Entry, e.accept.accept = e.accept := by
    rintro ⟨id, t, state, current, baseline, owner⟩
    cases state <;> rfl
  rw [acceptAll, acceptAll, List.map_map]
  exact congrArg ChangeSet.mk (List.map_congr_left fun e _ => htwice e)

/-- Where nothing is pending there is nothing to write. -/
theorem Database.prepare_of_not_pending {db : Database} {unit : UnitOfWork}
    (h : unit.changes.pending = []) : db.prepare unit = (.ok [], unit) := by
  have hroots : unit.changes.roots db.schema = .ok [] := by
    rw [ChangeSet.roots, h]
    exact congrArg Except.ok (List.filter_eq_nil_iff.mpr fun _ _ => nofun)
  have hgroups : unit.changes.groups db.schema = .ok [] := by
    rw [ChangeSet.groups, hroots]
    rfl
  rw [prepare, hgroups]
  rfl

theorem Way.write_nil {σ : Type} [DocumentStore σ] (way : Way σ) (store : σ) :
    way.write store [] = (.ok 0, store) := by
  cases way with
  | inOrder => rfl
  | together turns fair cancelled =>
    rw [write, (fair []).eq_nil]
    rfl

/-- **After everything was accepted, a save does nothing.** -/
theorem Database.saveOn_acceptAll {σ : Type} [DocumentStore σ] {db : Database} {way : Way σ}
    {unit : UnitOfWork} {changes : ChangeSet} (h : unit.changes = changes.acceptAll)
    (store : σ) : db.saveOn way unit store = (.ok 0, unit, store) := by
  have hpending : unit.changes.pending = [] := by rw [h, changes.pending_acceptAll]
  have hsame : { unit with changes := unit.changes.acceptAll } = unit := by
    rw [h, changes.acceptAll_acceptAll, ← h]
  rw [saveOn, saveBy_of_ok (prepare_of_not_pending hpending), way.write_nil, finish, hsame,
    ite_self]
  rfl

/-! ## All or nothing -/

/-- **A save is all or nothing.** An error leaves a change set that is as it was but for generated
values of the roots, and where it is not the store that failed, the store was not asked for
anything. Without an error, if changes are to be accepted then all of them are: the entries keep
their types and owners, and their values but for those that were generated for roots, and whichever
way the next save goes, there is nothing left for it to do. Entries have types of the schema, which
finds them by their names. -/
theorem save_all_or_nothing {σ : Type} [DocumentStore σ] (db : Database)
    (way : Way (Recorder σ)) (unit : UnitOfWork) (recorder : Recorder σ) :
    (∀ err unit' recorder', db.saveOn way unit recorder = (.error err, unit', recorder') →
      unit.changes.Refilled db.schema (unit.changes.HasPending db.schema) unit'.changes
      ∧ ((db.prepare unit).1 = .error err ∧ recorder' = recorder
        ∨ ∃ written failure, (db.prepare unit).1 = .ok written ∧ err = .store failure))
    ∧ ∀ n unit' recorder', db.saveOn way unit recorder = (.ok n, unit', recorder') →
      db.acceptOnSuccess →
      unit'.changes.pending = []
      ∧ (∀ e ∈ unit'.changes.entries, e.baseline = e.current)
      ∧ (∃ filled, unit.changes.Refilled db.schema (unit.changes.HasPending db.schema) filled
        ∧ unit'.changes = filled.acceptAll)
      ∧ ∀ (next : Way (Recorder σ)) (later : Recorder σ),
        db.saveOn next unit' later = (.ok 0, unit', later) := by
  have hrefilled := db.prepare_refilled unit
  cases hprepare : db.prepare unit with
  | mk prepared mid =>
    rw [hprepare] at hrefilled
    cases prepared with
    -- the preparation failed, so that the store was never asked
    | error e =>
      rw [Database.saveOn, Database.saveBy_of_error hprepare]
      refine ⟨?_, nofun⟩
      intro err unit' recorder' h
      cases h
      exact ⟨hrefilled, .inl ⟨rfl, rfl⟩⟩
    | ok written =>
      rw [Database.saveOn, Database.saveBy_of_ok hprepare]
      cases hwrite : way.write recorder written with
      | mk result recorder₁ =>
        cases result with
        -- the store failed, or the save was cancelled, after all was prepared
        | error failure =>
          refine ⟨?_, nofun⟩
          intro err unit' recorder' h
          cases h
          exact ⟨hrefilled, .inr ⟨written, failure, rfl, rfl⟩⟩
        | ok total =>
          refine ⟨nofun, ?_⟩
          intro n unit' recorder' h haccept
          simp only [Prod.mk.injEq] at h
          obtain ⟨_, rfl, _⟩ := h
          -- only a save that gets through accepts the changes
          have hfinish : (db.finish mid (.ok total : Except StoreError Nat)).changes
              = mid.changes.acceptAll := by
            rw [Database.finish, haccept]
            rfl
          refine ⟨?_, ?_, ⟨mid.changes, hrefilled, hfinish⟩, ?_⟩
          · rw [hfinish, mid.changes.pending_acceptAll]
          · rw [hfinish]
            exact mid.changes.baseline_acceptAll
          · exact fun next later => Database.saveOn_acceptAll hfinish later

/-! ## Pets with and without keys -/

/-- A new pet, whose version is not set. -/
def newPet : Entry := petEntry .onAdd 0 .added 8 0 "Rex"

/-- A pet that is gone, but whose key is unknown. -/
def keylessPet : Entry := { petEntry .onAdd 1 .deleted 9 1 "Ivy" with baseline := [("Id", .null)] }

/-- A store with no pets, of which nothing has been asked. -/
def freshRecorder : Recorder MemoryStore := ⟨petStore [], []⟩

/-- The new pet gets its version before the missing key is met, and is saved without the other
one. -/
theorem save_all_or_nothing_pets :
    (∃ unit', Database.saveOn ⟨pets .onAdd, true⟩ .inOrder (petUnit [newPet, keylessPet])
        freshRecorder = (.error (.update (.missingKeyValue "Pet" "Id")), unit', freshRecorder)
      ∧ unit'.changes ≠ ⟨[newPet, keylessPet]⟩
      ∧ ChangeSet.Refilled (pets .onAdd) (ChangeSet.HasPending (pets .onAdd) ⟨[newPet, keylessPet]⟩)
        ⟨[newPet, keylessPet]⟩ unit'.changes)
    ∧ ∃ unit' recorder', Database.saveOn ⟨pets .onAdd, true⟩ .inOrder (petUnit [newPet])
        freshRecorder = (.ok 1, unit', recorder')
      ∧ Database.saveOn ⟨pets .onAdd, true⟩ .inOrder unit' recorder'
        = (.ok 0, unit', recorder') := by
  refine ⟨⟨_, rfl, by decide, ?_⟩, _, _, rfl, ?_⟩
  · exact ((save_all_or_nothing ⟨pets .onAdd, true⟩ .inOrder (petUnit [newPet, keylessPet])
      freshRecorder).1 _ _ _ rfl).1
  · obtain ⟨_, _, _, hnothing⟩ := (save_all_or_nothing ⟨pets .onAdd, true⟩ .inOrder
      (petUnit [newPet]) freshRecorder).2 _ _ _ rfl rfl
    exact hnothing _ _

end Odm
