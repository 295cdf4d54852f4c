import Odm.Proofs.Store.Effect
import Odm.Proofs.Table
import Odm.Proofs.Update.Turn
import Odm.Save.Database

/-!
# The course of a save

A save finds the roots of what is pending and groups them by collection. Then every root of
every group has its turn, and the directives of a group are written as one batch. The *course*
of the save is the turns under their collections.

Each root is in the group of its collection, and no collection has two groups. So when batches
are written in order, each collection gets the effects of its own batch and of nothing else.
-/

namespace Odm

/-! ## Groups -/

namespace ChangeSet

/-- Roots are in the groups of their collections, and groups have nothing else. -/
structure Grouped (s : Schema) (changes : ChangeSet) (roots : List Nat) (groups : Groups) :
    Prop where
  sorted : Table.Sorted groups
  sound : ∀ collection ids, groups.get? collection = some ids → ∀ id ∈ ids, id ∈ roots
    ∧ ∃ e, changes.entry? id = some e ∧ s.collectionName e.entityType.name = .ok collection
  complete : ∀ id ∈ roots, ∃ collection ids, groups.get? collection = some ids ∧ id ∈ ids

theorem grouped_nil (s : Schema) (changes : ChangeSet) : Grouped s changes [] [] where
  sorted := .nil
  sound := nofun
  complete := nofun

/-- **One more root keeps the groups right.** -/
theorem grouped_addToGroup {s : Schema} {changes : ChangeSet} {roots : List Nat}
    {groups groups' : Groups} {root : Nat} (hgroups : Grouped s changes roots groups)
    (h : changes.addToGroup s groups root = .ok groups') :
    Grouped s changes (roots ++ [root]) groups' := by
  obtain ⟨e, he, h⟩ := Except.bind_eq_ok_iff.mp h
  obtain ⟨collection, hc, h⟩ := Except.bind_eq_ok_iff.mp h
  cases Except.pure_eq_ok_iff.mp h
  have hentry := entry_eq_ok (Except.mapError_eq_ok_iff.mp he)
  have hname := Except.mapError_eq_ok_iff.mp hc
  refine ⟨Table.sorted_insert hgroups.sorted _ _, ?_, ?_⟩
  · intro c ids hget id hid
    by_cases hcc : c = collection
    · subst hcc
      rw [Table.get?_insert_self] at hget
      cases hget
      -- in the group of the collection are its earlier roots and then the new one
      rcases List.mem_append.mp hid with hid | hid
      · cases hold : groups.get? c with
        | none => rw [hold] at hid; cases hid
        | some old =>
          rw [hold] at hid
          obtain ⟨hroots, hin⟩ := hgroups.sound c old hold id hid
          exact ⟨List.mem_append_left _ hroots, hin⟩
      · rw [List.mem_singleton.mp hid]
        exact ⟨List.mem_append_right _ (List.mem_singleton_self _), e, hentry, hname⟩
    · rw [Table.get?_insert_ne _ hcc] at hget
      obtain ⟨hroots, hin⟩ := hgroups.sound c ids hget id hid
      exact ⟨List.mem_append_left _ hroots, hin⟩
  · intro id hid
    rcases List.mem_append.mp hid with hid | hid
    · -- no root that was in a group gets lost when another one is put there
      obtain ⟨c, ids, hget, hmem⟩ := hgroups.complete id hid
      by_cases hcc : c = collection
      · subst hcc
        refine ⟨c, _, Table.get?_insert_self _ _ _, ?_⟩
        rw [hget]
        exact List.mem_append_left _ hmem
      · exact ⟨c, ids, by rw [Table.get?_insert_ne _ hcc, hget], hmem⟩
    · exact ⟨collection, _, Table.get?_insert_self _ _ _, List.mem_append_right _ hid⟩

/-- **The groups of a change set are those of its roots.** -/
theorem groups_grouped {s : Schema} {changes : ChangeSet} {groups : Groups}
    (h : changes.groups s = .ok groups) :
    ∃ roots, changes.roots s = .ok roots ∧ Grouped s changes roots groups := by
  obtain ⟨roots, hroots, h⟩ := Except.bind_eq_ok_iff.mp h
  refine ⟨roots, hroots, ?_⟩
  exact Except.foldlM_prefix (fun _ _ _ _ hgroups hroot => grouped_addToGroup hgroups hroot)
    (grouped_nil s changes) h

end ChangeSet

/-! ## Courses -/

/-- The turns of a save under their collections, in the order in which they are taken. -/
structure Course (s : Schema) (unit : UnitOfWork) (course : List (String × List Turn))
    (unit' : UnitOfWork) : Prop where
  groups : unit.changes.groups s = .ok (course.map fun (c, turns) => (c, turns.map (·.id)))
  turns : Turns s unit (course.flatMap Prod.snd) unit'

/-- The batches that are written in the course of a save. -/
def batches (course : List (String × List Turn)) : List Batch :=
  course.map fun (c, turns) => (c, turns.map (·.directive))

theorem Database.prepareGroups_turns {db : Database} {groups : ChangeSet.Groups} :
    ∀ {unit unit' : UnitOfWork} {written : List Batch},
      db.prepareGroups unit groups = (.ok written, unit') →
      ∃ course, Turns db.schema unit (course.flatMap Prod.snd) unit'
        ∧ (course.map fun (c, turns) => (c, turns.map (·.id))) = groups
        ∧ batches course = written := by
  induction groups with
  | nil =>
    intro unit unit' written h
    cases h
    exact ⟨[], .nil, rfl, rfl⟩
  | cons group rest ih =>
    obtain ⟨c, roots⟩ := group
    intro unit unit' written h
    rw [prepareGroups] at h
    split at h
    · cases h
    · rename_i directives unit₁ hd
      -- the turns of the other groups start where those of the first one end
      cases hrest : db.prepareGroups unit₁ rest with
      | mk later unit₂ =>
        simp only [hrest, Prod.mk.injEq] at h
        obtain ⟨hlater, rfl⟩ := h
        obtain ⟨bs, rfl, rfl⟩ := Except.map_eq_ok_iff.mp hlater
        obtain ⟨turns, hturns, rfl, rfl⟩ := UnitOfWork.directives_turns hd
        obtain ⟨course, hcourse, rfl, rfl⟩ := ih hrest
        exact ⟨(c, turns) :: course, hturns.append hcourse, rfl, rfl⟩

/-- **A save that can be prepared has a course.** -/
theorem Database.prepare_course {db : Database} {unit unit' : UnitOfWork}
    {written : List Batch} (h : db.prepare unit = (.ok written, unit')) :
    ∃ course, Course db.schema unit course unit' ∧ batches course = written := by
  unfold prepare at h
  split at h
  · cases h
  · rename_i groups hgroups
    obtain ⟨course, hturns, rfl, rfl⟩ := prepareGroups_turns h
    exact ⟨course, ⟨hgroups, hturns⟩, rfl⟩

namespace Course

variable {s : Schema} {unit unit' : UnitOfWork} {course : List (String × List Turn)}

/-- The batches are for different collections, in ascending order. -/
theorem sorted_batches (h : Course s unit course unit') : Table.Sorted (batches course) := by
  obtain ⟨roots, _, hgrouped⟩ := ChangeSet.groups_grouped h.groups
  have hsorted := hgrouped.sorted
  rw [Table.Sorted, List.pairwise_map] at hsorted
  exact List.pairwise_map.mpr hsorted

theorem nodup_collections (h : Course s unit course unit') :
    (course.map Prod.fst).Nodup := by
  have hnodup := h.sorted_batches.nodup_keys
  rwa [batches, List.map_map] at hnodup

/-- A turn is that of an entry of the collection, and does what the entry's state asks for. -/
theorem mem_turn (h : Course s unit course unit') {collection : String} {turns : List Turn}
    (hturns : (collection, turns) ∈ course) {turn : Turn} (hturn : turn ∈ turns) :
    ∃ e, turn.before.changes.entry? turn.id = some e
      ∧ s.collectionName e.entityType.name = .ok collection
      ∧ turn.before.changes.outlines = unit.changes.outlines
      ∧ Written s turn.before turn.id e turn.directive turn.after := by
  obtain ⟨hout, e, he, hwritten⟩ :=
    h.turns.mem_written (List.mem_flatMap.mpr ⟨_, hturns, hturn⟩)
  obtain ⟨roots, _, hgrouped⟩ := ChangeSet.groups_grouped h.groups
  have hgroup : (collection, turns.map (·.id)) ∈
      course.map fun (c, turns) => (c, turns.map (·.id)) := List.mem_map.mpr ⟨_, hturns, rfl⟩
  -- The collection was found for the entry before any turn, which has the same type.
  obtain ⟨_, e₀, he₀, hname⟩ := hgrouped.sound collection _
    (Table.get?_of_mem hgrouped.sorted hgroup) turn.id (List.mem_map_of_mem hturn)
  obtain ⟨e₁, he₁, hout₁⟩ := ChangeSet.entry?_of_outlines hout he
  cases he₀.symm.trans he₁
  rw [← Entry.entityType_of_outline hout₁] at hname
  exact ⟨e, he, hname, hout, hwritten⟩

/-- Every root has a turn. -/
theorem exists_turn (h : Course s unit course unit') {roots : List Nat}
    (hroots : unit.changes.roots s = .ok roots) {id : Nat} (hid : id ∈ roots) :
    ∃ collection earlier turn later, (collection, earlier ++ turn :: later) ∈ course
      ∧ turn.id = id := by
  obtain ⟨roots', hroots', hgrouped⟩ := ChangeSet.groups_grouped h.groups
  cases hroots.symm.trans hroots'
  obtain ⟨collection, ids, hget, hmem⟩ := hgrouped.complete id hid
  obtain ⟨⟨c, turns⟩, hcourse, heq⟩ := List.mem_map.mp (Table.mem_of_get? hget)
  cases heq
  obtain ⟨turn, hturn, rfl⟩ := List.mem_map.mp hmem
  obtain ⟨earlier, later, rfl⟩ := List.append_of_mem hturn
  exact ⟨collection, earlier, turn, later, hcourse, rfl⟩

end Course

/-! ## Writing in order -/

/-- Batches that are written in order touch no collection but their own. -/
theorem Database.documents_writeInOrder_ne {other : String} :
    ∀ {written : List Batch} {store : MemoryStore}, other ∉ written.map Prod.fst →
      (writeInOrder store written).2.documents other = store.documents other := by
  intro written
  induction written with
  | nil => intro store _; rfl
  | cons batch rest ih =>
    obtain ⟨c, directives⟩ := batch
    intro store hother
    rw [List.map_cons, List.mem_cons, not_or] at hother
    have hne := store.documents_bulkWrite_ne directives hother.1
    rw [writeInOrder]
    cases hbulk : DocumentStore.bulkWrite store c directives with
    | mk result store₁ =>
      -- the first batch leaves the collection alone, and so do the others
      have hstore : (store.bulkWrite c directives).2 = store₁ := congrArg Prod.snd hbulk
      rw [hstore] at hne
      cases result with
      | error e => exact hne
      | ok counts => exact (ih hother.2).trans hne

/-- **In a save that succeeds each collection gets the effects of its batch.** -/
theorem Database.writeInOrder_effects :
    ∀ {written : List Batch} {store store' : MemoryStore} {n : Nat},
      (written.map Prod.fst).Nodup → writeInOrder store written = (.ok n, store') →
      ∀ collection directives, (collection, directives) ∈ written →
        Collection.Effects directives (store.documents collection)
          (store'.documents collection) := by
  intro written
  induction written with
  | nil => intro store store' n _ _ collection directives h; cases h
  | cons batch rest ih =>
    obtain ⟨c, ds⟩ := batch
    intro store store' n hnodup h collection directives hmem
    rw [List.map_cons, List.nodup_cons] at hnodup
    rw [writeInOrder] at h
    split at h
    · cases h
    · rename_i counts store₁ hbulk
      cases hrest : writeInOrder store₁ rest with
      | mk later store₂ =>
        simp only [hrest, Prod.mk.injEq] at h
        obtain ⟨hlater, rfl⟩ := h
        obtain ⟨n', rfl, rfl⟩ := Except.map_eq_ok_iff.mp hlater
        rcases List.mem_cons.mp hmem with heq | hlater
        · cases heq
          have hne : (writeInOrder store₁ rest).2.documents c = store₁.documents c :=
            documents_writeInOrder_ne hnodup.1
          rw [hrest] at hne
          rw [hne] -- no later batch is for the collection
          exact MemoryStore.bulkWrite_effects hbulk
        · -- the batch is a later one, and the first batch leaves its collection as it was
          have hcollection : collection ≠ c := by
            rintro rfl
            exact hnodup.1 (List.mem_map.mpr ⟨_, hlater, rfl⟩)
          have hne := store.documents_bulkWrite_ne ds hcollection
          have hstore : (store.bulkWrite c ds).2 = store₁ := congrArg Prod.snd hbulk
          rw [hstore] at hne
          rw [← hne]
          exact ih hnodup.2 hrest collection directives hlater

/-! ## Pets -/

/-- A schema of pets, whose versions are concurrency tokens and may be generated. -/
def pets (versions : Generation) : Schema where
  types := [
    { name := "Pet"
      collection := some "pets"
      discriminatorValue := some "Pet"
      key := some ["Id"]
      properties := [⟨"Id", "Pet", .int32, some "_id", false, false, some .onAdd⟩,
        ⟨"Version", "Pet", .int32, none, false, true, some versions⟩,
        ⟨"Name", "Pet", .string, none, false, false, none⟩] }]
  discriminatorElement := "_t"

/-- An entry for a pet, tracked with the values that it has. -/
def petEntry (versions : Generation) (id : Nat) (state : EntityState) (key version : Int)
    (name : String) : Entry where
  id := id
  entityType := (pets versions).types.headD default
  state := state
  current := [("Id", .int key), ("Name", .str name), ("Version", .int version)]
  baseline := ChangeSet.initialBaseline state
    [("Id", .int key), ("Name", .str name), ("Version", .int version)]
  owner := none

/-- A unit of work in which nothing has been planned or generated yet. -/
def petUnit (entries : List Entry) : UnitOfWork := { changes := ⟨entries⟩ }

/-- The document of a pet. -/
def petDocument (key version : Int) (name : String) : Document :=
  [("Name", .str name), ("Version", .int version), ("_id", .int key)]

/-- A store with pets. -/
def petStore (documents : List Document) : MemoryStore := ⟨[("pets", documents)]⟩

end Odm
