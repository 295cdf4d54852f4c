import Odm.Proofs.Save.Preparation
import Odm.Proofs.Update.Embedding

/-!
# What a save asks a store for

A store is asked for each prepared batch at most once, whatever the way of writing. As batches are
for different collections and have one directive for each root, no root is written twice. And if
all batches get through then the save comes to the number of documents that were inserted,
modified and deleted.

A schema knows types that have no collection, and has an error for them. No save meets that error:
only roots are grouped by collection, and a root is never of such a type.
-/

namespace Odm

/-! ## Roots without collections -/

/-- The error that a type has no collection. -/
def UpdateError.IsUncollected : UpdateError → Prop
  | .schema (.notACollectionType _) => True
  | _ => False

/-- The error that a type has no collection, met in a save. -/
def SaveError.IsUncollected : SaveError → Prop
  | .update e => e.IsUncollected
  | _ => False

section Uncollected

open Except (Avoids)

theorem ValueSource.fill_avoids (adding : Bool) (properties : List Property) :
    ∀ (source : ValueSource) (e : Entry),
      (source.fill adding e properties).1.Avoids UpdateError.IsUncollected := by
  induction properties with
  | nil => exact fun _ _ => .ok ()
  | cons p rest ih =>
    intro source e
    rw [fill]
    split
    · -- what cannot be generated is reported as such
      split
      · rename_i err hnext
        unfold next at hnext
        split at hnext
        · cases hnext
          exact .error not_false
        · cases hnext
      · exact ih _ _
    · exact ih source e

theorem WritePlan.filter_avoids (s : Schema) (plan : WritePlan) (e : Entry) :
    (plan.filter s e).Avoids UpdateError.IsUncollected := by
  unfold filter
  dsimp only
  split
  · exact .error not_false
  · refine .bind (.foldlM ?_ []) fun _ _ => .ok _
    intro filter p _
    unfold addKey
    split
    · exact .error not_false
    · exact .error not_false
    · exact .ok _

theorem ChangeSet.entry_avoids (changes : ChangeSet) (id : Nat) :
    (changes.entry id).Avoids UpdateError.IsUncollected := by
  unfold entry
  split
  · exact .ok _
  · exact .error not_false

theorem Entry.embed_avoids (s : Schema) (e : Entry) {later : List Composed}
    (hlater : ∀ p ∈ later, p.2.Avoids UpdateError.IsUncollected) (document : Document)
    (n : Navigation) : (e.embed s later document n).Avoids UpdateError.IsUncollected := by
  have htarget : ((s.entityType n.target).mapError UpdateError.schema).Avoids
      UpdateError.IsUncollected := by
    refine .mapError ?_
    unfold Catalog.entityType
    split
    · exact .ok _
    · exact .error not_false
  -- what is composed into the document avoids the error by hypothesis
  have hparts : ∀ target, ∀ p ∈ e.parts s target later, p.2.Avoids UpdateError.IsUncollected :=
    fun _ p hp => hlater p (List.mem_of_mem_filter hp)
  unfold embed
  split
  · exact .ok _
  · refine .bind htarget fun target _ => ?_
    dsimp only
    split
    · refine .bind (.mapM (hparts target.name)) fun items _ => ?_
      split
      · exact .ok _
      · exact .ok _
    · split
      · exact .ok _
      · rename_i part rest hpart
        exact .bind (hparts target.name _ (hpart ▸ List.mem_cons_self)) fun _ _ => .ok _

theorem ChangeSet.composeEntries_avoids (s : Schema) (entries : List Entry) :
    ∀ p ∈ composeEntries s entries, p.2.Avoids UpdateError.IsUncollected := by
  induction entries with
  | nil => exact fun _ hp => absurd hp List.not_mem_nil
  | cons e rest ih =>
    have hfirst : (e.compose s (composeEntries s rest)).Avoids UpdateError.IsUncollected :=
      .foldlM (fun document n _ => e.embed_avoids s ih document n) _
    exact List.forall_mem_cons.mpr ⟨hfirst, ih⟩

theorem ChangeSet.compose_avoids (s : Schema) (changes : ChangeSet) (id : Nat) :
    (changes.compose s id).Avoids UpdateError.IsUncollected := by
  unfold compose
  split
  · rename_i hentry
    exact composeEntries_avoids s _ _ (List.mem_of_getElem? hentry)
  · exact .error not_false

theorem WritePlan.directive_avoids (s : Schema) (plan : WritePlan) (changes : ChangeSet)
    (id : Nat) : (plan.directive s changes id).Avoids UpdateError.IsUncollected := by
  have hentry := changes.entry_avoids id
  have hcompose := changes.compose_avoids s id
  unfold directive
  split
  · exact .bind hcompose fun _ _ => .ok _
  · refine .bind hentry fun e _ => .bind (filter_avoids s plan e) fun _ _ => ?_
    exact .bind hcompose fun _ _ => .ok _
  · exact .bind hentry fun e _ => .bind (filter_avoids s plan e) fun _ _ => .ok _

theorem WritePlan.write_avoids (s : Schema) (plan : WritePlan) (id : Nat) (changes : ChangeSet)
    (source : ValueSource) :
    (plan.write s id changes source).1.Avoids UpdateError.IsUncollected := by
  unfold write
  split
  · exact plan.directive_avoids s changes id
  · split
    · exact .error not_false
    · exact .bind (ValueSource.fill_avoids _ _ _ _) fun _ _ => plan.directive_avoids s _ id

theorem Planner.plan_avoids (planner : Planner) (t : EntityType) (state : EntityState) :
    (planner.plan t state).Avoids UpdateError.IsUncollected := by
  have hmake : (WritePlan.ofState t state).Avoids UpdateError.IsUncollected := by
    unfold WritePlan.ofState
    split
    · exact .ok _
    · exact .error not_false
  unfold plan
  split
  · exact .ok _
  · split
    · rename_i err herr
      exact .error (hmake err herr)
    · exact .ok _

theorem UnitOfWork.directive_avoids (s : Schema) (id : Nat) (unit : UnitOfWork) :
    (unit.directive s id).1.Avoids UpdateError.IsUncollected := by
  unfold directive
  split
  · rename_i err herr
    exact .error (unit.changes.entry_avoids id err herr)
  · unfold directiveAs
    split
    · rename_i err herr
      exact .error (unit.planner.plan_avoids _ _ err herr)
    · exact WritePlan.write_avoids s _ id _ _

theorem UnitOfWork.directives_avoids (s : Schema) (ids : List Nat) : ∀ unit : UnitOfWork,
    (unit.directives s ids).1.Avoids UpdateError.IsUncollected := by
  induction ids with
  | nil => exact fun _ => .ok []
  | cons id rest ih =>
    intro unit
    have hfirst := unit.directive_avoids s id
    rw [directives]
    split
    · rename_i err unit' herr
      exact .error (hfirst err (by rw [herr]))
    · exact .map _ (ih _)

theorem Database.prepareGroups_avoids (db : Database) (groups : ChangeSet.Groups) :
    ∀ unit : UnitOfWork, (db.prepareGroups unit groups).1.Avoids SaveError.IsUncollected := by
  induction groups with
  | nil => exact fun _ => .ok []
  | cons group rest ih =>
    intro unit
    have hfirst := unit.directives_avoids db.schema group.2
    rw [prepareGroups]
    split
    · rename_i err unit' herr
      exact .error fun huncollected => hfirst err (by rw [herr]) huncollected
    · exact .map _ (ih _)

theorem ChangeSet.climb_avoids (s : Schema) {entries : List Entry} :
    ∀ id, (climb s entries id).Avoids SaveError.IsUncollected := by
  induction entries with
  | nil => exact fun _ => .error not_false
  | cons e earlier ih =>
    intro id
    rw [climb]
    split
    · exact ih id
    · split
      · exact .ok id
      · split
        · exact ih _
        · exact .error not_false

/-- **Roots have collections**, so no group of roots is without one. -/
theorem ChangeSet.Numbered.groups_avoids {s : Schema} {changes : ChangeSet}
    (hnumbered : changes.Numbered) : (changes.groups s).Avoids SaveError.IsUncollected := by
  refine .bind ?_ fun roots hroots => .foldlM ?_ []
  · exact .bind (.mapM fun id _ => climb_avoids s id) fun _ _ => .ok _
  · intro groups id hid
    obtain ⟨e, collection, he, hcollection⟩ := hnumbered.exists_collection hroots hid
    refine .bind ?_ fun e' he' => .bind ?_ fun _ _ => .ok _
    · rw [entry, he]
      exact .ok e
    · rw [entry, he] at he'
      cases he'
      rw [hcollection]
      exact .ok collection

theorem Database.saveOn_avoids {σ : Type} [DocumentStore σ] {db : Database} {unit : UnitOfWork}
    (hnumbered : unit.changes.Numbered) (way : Way σ) (store : σ) :
    (db.saveOn way unit store).1.Avoids SaveError.IsUncollected := by
  -- collections are asked for while roots are grouped, and roots have some
  have hprepare : (db.prepare unit).1.Avoids SaveError.IsUncollected := by
    unfold prepare
    split
    · rename_i err herr
      exact .error (hnumbered.groups_avoids err herr)
    · exact db.prepareGroups_avoids _ unit
  unfold saveOn
  cases hprepared : db.prepare unit with
  | mk prepared mid =>
    rw [hprepared] at hprepare
    cases prepared with
    | error err =>
      rw [saveBy_of_error hprepared]
      exact .error (hprepare err rfl)
    -- the store reports errors of its own kind
    | ok written =>
      rw [saveBy_of_ok hprepared]
      exact .mapError fun _ _ => not_false

end Uncollected

/-! ## Roots written once -/

/-- **Every root is written once.** What is prepared for the pending entries is one batch for each
collection of their roots, with one directive for each root. The store is asked for each batch at
most once, and for all of them unless a write fails or the save is cancelled; if all get through
then the total is that of their counts. Whether or not a save can be prepared, it does not find a
root to be of a type that has no collection. Entries have types of the schema, which finds them by
their names. -/
theorem roots_written_once {σ : Type} [DocumentStore σ] (db : Database) {unit : UnitOfWork}
    (hnumbered : unit.changes.Numbered) :
    (∀ written mid, db.prepare unit = (.ok written, mid) →
      (∃ roots, unit.changes.roots db.schema = .ok roots
        ∧ Prepared db.schema unit roots written)
      ∧ ∀ (way : Way (Recorder σ)) (recorder : Recorder σ), ∃ writes,
        (db.saveOn way unit recorder).2.2.writes = recorder.writes ++ writes
        ∧ (writes.map (·.batch)).Subperm written
        ∧ ((∀ w ∈ writes, w.result.isOk) →
          (db.saveOn way unit recorder).1 ≠ .error (.store .cancelled) →
          (writes.map (·.batch)).Perm written)
        ∧ ∀ counts : Batch → BulkCounts,
          (∀ batch ∈ written, ⟨batch, .ok (counts batch)⟩ ∈ writes) →
          let all := BulkCounts.addAll (written.map counts)
          (db.saveOn way unit recorder).1 = .ok (all.inserted + all.modified + all.deleted))
    ∧ ∀ (way : Way (Recorder σ)) (recorder : Recorder σ) (name : String),
      (db.saveOn way unit recorder).1 ≠ .error (.update (.schema (.notACollectionType name))) := by
  refine ⟨?_, ?_⟩
  · intro written mid hprepare
    refine ⟨Database.prepared_of_prepare hnumbered hprepare, ?_⟩
    intro way recorder
    obtain ⟨_, hnodup⟩ := Database.nodup_of_sorted (Database.sorted_of_prepare hprepare)
    obtain ⟨writes, hwrites, hsent, hall, htotal⟩ := way.write_sent recorder hnodup
    rw [Database.saveOn, Database.saveBy_of_ok hprepare]
    refine ⟨writes, hwrites, hsent, ?_, ?_⟩
    · -- without errors of the store nothing but a cancellation stops the writes
      intro hok hresult
      refine hall hok fun hcancelled => hresult ?_
      rw [hcancelled]
      rfl
    · intro counts hcounts
      rw [htotal counts hcounts]
      rfl
  · intro way recorder name hresult
    exact Database.saveOn_avoids hnumbered way recorder _ hresult trivial

/-! ## Moving families -/

/-- A family that was stored. -/
def storedFamily (id : Nat) (state : EntityState) (key : Int) : Entry :=
  { newFamily with id, state, current := [("Id", .int key)], baseline := [("Id", .int key)] }

/-- A family that is as it was but for a new child, and a family that is gone though it has a new
home. -/
def movingUnit : UnitOfWork :=
  petUnit [storedFamily 0 .unchanged 1, childNamed 1 "Ada", storedFamily 2 .deleted 2,
    { homeIn 3 "Rome" with owner := some 2 }]

theorem numbered_movingUnit : movingUnit.changes.Numbered := by
  intro i e he
  match i with
  | 0 | 1 | 2 | 3 =>
    cases he
    rfl
  | i + 4 => cases he

/-- What is written for the families. -/
def movingBatches : List Batch :=
  [("Family", [
    .replace [("_id", .int 1)]
      [("Children", .arr [.obj [("Name", .str "Ada")]]), ("_id", .int 1)],
    .delete [("_id", .int 2)]])]

/-- A store that has both families, before anything is written. -/
def familyRecorder : Recorder MemoryStore :=
  ⟨⟨[("Family", [[("_id", .int 1)], [("_id", .int 2)]])]⟩, []⟩

/-- What comes of the batch: one family is found to replace and changes, the other one is
deleted. -/
def movingCounts : BulkCounts := { matched := 1, modified := 1, deleted := 1 }

/-- Both families are written once, one replaced and one deleted, which comes to two. -/
theorem roots_written_once_moving :
    movingUnit.changes.Numbered
      ∧ Prepared household movingUnit [0, 2] movingBatches
      ∧ ∃ writes,
        (Database.saveOn ⟨household, true⟩ .inOrder movingUnit familyRecorder).2.2.writes = writes
          ∧ (writes.map (·.batch)).Perm movingBatches
          ∧ (Database.saveOn ⟨household, true⟩ .inOrder movingUnit familyRecorder).1 = .ok 2 := by
  -- both sides of the statement are met by the batches that the kernel computes
  have hprepare : (Database.prepare ⟨household, true⟩ movingUnit).1 = .ok movingBatches := by
    rfl
  obtain ⟨⟨roots, hroots, hprepared⟩, hsent⟩ :=
    (roots_written_once (σ := MemoryStore) ⟨household, true⟩ numbered_movingUnit).1
      movingBatches (Database.prepare ⟨household, true⟩ movingUnit).2 (by rw [← hprepare])
  have hfamilies : movingUnit.changes.roots household = .ok [0, 2] := by rfl
  cases hfamilies.symm.trans hroots
  refine ⟨numbered_movingUnit, hprepared, ?_⟩
  obtain ⟨writes, hwrites, _, hall, htotal⟩ := hsent .inOrder familyRecorder
  have hmade : (Database.saveOn ⟨household, true⟩ .inOrder movingUnit familyRecorder).2.2.writes
      = movingBatches.map fun batch => ⟨batch, .ok movingCounts⟩ := by rfl
  have hwritten : writes = movingBatches.map fun batch => ⟨batch, .ok movingCounts⟩ :=
    hwrites.symm.trans hmade
  subst hwritten
  have hcomes := htotal (fun _ => movingCounts) fun batch hbatch => List.mem_map_of_mem hbatch
  refine ⟨_, hwrites, hall (by decide) ?_, hcomes⟩
  rw [hcomes]
  nofun

end Odm
