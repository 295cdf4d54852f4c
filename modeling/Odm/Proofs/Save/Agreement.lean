import Odm.Proofs.Save.Ways

/-!
# Ways of saving that agree

A bulk write to the memory store depends on the documents of its collection and changes no others.
The batches of a save are for different collections, so each has the same *outcome* whenever it is
written, and its collection is *settled* in the same way. Whether batches are written in
order or together in any turns, the outcomes are the same and are looked at in the same order.

The one difference is in what becomes of batches behind the first failure: together they are
written all the same. So the stores agree up to the collection that failed, and entirely where none
did.
-/

namespace Odm

/-! ## Outcomes -/

namespace MemoryStore

/-- The store once a batch has been written, be it in part. -/
def after (store : MemoryStore) (batch : Batch) : MemoryStore :=
  (store.bulkWrite batch.1 batch.2).2

/-- What becomes of a batch that is written. -/
def outcome (store : MemoryStore) (batch : Batch) : Except StoreError BulkCounts :=
  (store.bulkWrite batch.1 batch.2).1

/-- The documents of its collection once a batch has been written. -/
def settled (store : MemoryStore) (batch : Batch) : List Document :=
  (store.after batch).documents batch.1

variable {store store' : MemoryStore} {batch : Batch}

theorem bulkWrite_eq (store : MemoryStore) (batch : Batch) :
    DocumentStore.bulkWrite store batch.1 batch.2 = (store.outcome batch, store.after batch) := rfl

theorem outcome_congr (h : store'.documents batch.1 = store.documents batch.1) :
    store'.outcome batch = store.outcome batch := by
  rw [outcome, outcome, bulkWrite, bulkWrite, h]

theorem settled_congr (h : store'.documents batch.1 = store.documents batch.1) :
    store'.settled batch = store.settled batch := by
  rw [settled, settled, after, after, documents_bulkWrite_self, documents_bulkWrite_self, h]

/-- Batches for other collections do not see that a batch was written. -/
theorem documents_after (store : MemoryStore) {rest : List Batch}
    (h : batch.1 ∉ rest.map Prod.fst) :
    ∀ other ∈ rest, (store.after batch).documents other.1 = store.documents other.1 := by
  intro other hother
  refine store.documents_bulkWrite_ne batch.2 ?_
  intro hsame
  exact h (hsame ▸ List.mem_map_of_mem hother)

theorem outcomes_after (store : MemoryStore) {rest : List Batch}
    (h : batch.1 ∉ rest.map Prod.fst) :
    rest.map (store.after batch).outcome = rest.map store.outcome :=
  List.map_congr_left fun other hother => outcome_congr (store.documents_after h other hother)

end MemoryStore

namespace Database

open MemoryStore

variable {store : MemoryStore}

/-! ## Written together -/

/-- **Batches that are written together have their outcomes**, and settle their collections. -/
theorem writeTogether_settled {batches : List Batch} : ∀ store : MemoryStore,
    (batches.map Prod.fst).Nodup →
    (writeTogether (fun _ => false) store batches).1 = batches.map store.outcome
      ∧ (∀ batch ∈ batches, (writeTogether (fun _ => false) store batches).2.documents batch.1
          = store.settled batch)
      ∧ ∀ other ∉ batches.map Prod.fst,
        (writeTogether (fun _ => false) store batches).2.documents other
          = store.documents other := by
  induction batches with
  | nil => exact fun _ _ => ⟨rfl, nofun, fun _ _ => rfl⟩
  | cons first rest ih =>
    intro store hnodup
    rw [List.map_cons, List.nodup_cons] at hnodup
    obtain ⟨hresults, hsettled, hothers⟩ := ih (store.after first) hnodup.2
    rw [writeTogether_of_written _ rfl (store.bulkWrite_eq first)]
    refine ⟨?_, ?_, ?_⟩
    · rw [hresults, store.outcomes_after hnodup.1, List.map_cons]
    · intro batch hbatch
      rcases List.mem_cons.mp hbatch with rfl | hbatch
      · -- no later batch is for the collection of the first one
        exact hothers batch.1 hnodup.1
      · -- the first batch is for another collection, so nothing changes for this one
        exact (hsettled batch hbatch).trans
          (settled_congr (store.documents_after hnodup.1 batch hbatch))
    · intro other hother
      rw [List.map_cons, List.mem_cons, not_or] at hother
      exact (hothers other hother.2).trans (store.documents_bulkWrite_ne first.2 hother.1)

/-! ## Written in order -/

theorem writeInOrder_of_outcome_error {first : Batch} {rest : List Batch} {e : StoreError}
    (h : store.outcome first = .error e) :
    writeInOrder store (first :: rest) = (.error e, store.after first) := by
  have hwritten := store.bulkWrite_eq first
  rw [h] at hwritten
  exact writeInOrder_of_error hwritten

theorem writeInOrder_of_outcome_ok {first : Batch} {rest : List Batch} {counts : BulkCounts}
    (h : store.outcome first = .ok counts) :
    writeInOrder store (first :: rest)
      = ((writeInOrder (store.after first) rest).1.map (counts.affected + ·),
        (writeInOrder (store.after first) rest).2) := by
  have hwritten := store.bulkWrite_eq first
  rw [h] at hwritten
  exact writeInOrder_of_ok hwritten

/-- **Batches that are written in order come to the total of their outcomes.** -/
theorem writeInOrder_total {batches : List Batch} : ∀ store : MemoryStore,
    (batches.map Prod.fst).Nodup →
    (writeInOrder store batches).1 = total (batches.map store.outcome) := by
  induction batches with
  | nil => exact fun _ _ => rfl
  | cons first rest ih =>
    intro store hnodup
    rw [List.map_cons, List.nodup_cons] at hnodup
    rw [List.map_cons, total]
    cases houtcome : store.outcome first with
    | error e =>
      rw [writeInOrder_of_outcome_error houtcome]
      rfl
    | ok counts =>
      rw [writeInOrder_of_outcome_ok houtcome, ih _ hnodup.2, store.outcomes_after hnodup.1]
      rfl

/-- **Batches that are written in order settle their collections** up to the first that fails. -/
theorem writeInOrder_settled {earlier later : List Batch} {batch : Batch} :
    ∀ {store : MemoryStore}, ((earlier ++ batch :: later).map Prod.fst).Nodup →
      (∀ other ∈ earlier, ∃ counts, store.outcome other = .ok counts) →
      (writeInOrder store (earlier ++ batch :: later)).2.documents batch.1
        = store.settled batch := by
  induction earlier with
  | nil =>
    intro store hnodup _
    rw [List.nil_append, List.map_cons, List.nodup_cons] at hnodup
    rw [List.nil_append]
    cases houtcome : store.outcome batch with
    | error e =>
      rw [writeInOrder_of_outcome_error houtcome]
      rfl
    | ok counts =>
      -- later batches are for other collections
      rw [writeInOrder_of_outcome_ok houtcome]
      exact documents_writeInOrder_ne hnodup.1
  | cons first earlier ih =>
    intro store hnodup hearlier
    rw [List.cons_append, List.map_cons, List.nodup_cons] at hnodup
    obtain ⟨⟨counts, houtcome⟩, hrest⟩ := List.forall_mem_cons.mp hearlier
    have hsame := store.documents_after hnodup.1
    rw [List.cons_append, writeInOrder_of_outcome_ok houtcome]
    -- the first batch leaves the later ones their outcomes and their documents
    refine (ih hnodup.2 fun other hother => ?_).trans ?_
    · rw [outcome_congr (hsame other (List.mem_append_left _ hother))]
      exact hrest other hother
    · exact settled_congr (hsame batch (List.mem_append_right _ List.mem_cons_self))

theorem total_of_error {earlier later : List Batch} {failed : Batch} {e : StoreError}
    (hearlier : ∀ batch ∈ earlier, ∃ counts, store.outcome batch = .ok counts)
    (hfailed : store.outcome failed = .error e) :
    total ((earlier ++ failed :: later).map store.outcome) = .error e := by
  induction earlier with
  | nil =>
    rw [List.nil_append, List.map_cons, hfailed]
    rfl
  | cons first earlier ih =>
    obtain ⟨⟨counts, hfirst⟩, hrest⟩ := List.forall_mem_cons.mp hearlier
    rw [List.cons_append, List.map_cons, hfirst, total, ih hrest]
    rfl

/-! ## Agreement -/

section Agreement

variable (turns : List Batch → List Batch) (fair : ∀ batches, (turns batches).Perm batches)
  {written : List Batch}

/-- What comes of batches does not depend on the way of writing. -/
theorem write_agrees (hnodup : (written.map Prod.fst).Nodup) :
    (Way.write (.together turns fair fun _ => false) store written).1
        = (writeInOrder store written).1 := by
  have hperm := fair written
  have hturns := (writeTogether_settled store
    ((hperm.map Prod.fst).nodup_iff.mpr hnodup)).1
  rw [Way.write, hturns, Way.collect_map fun batch hbatch => hperm.mem_iff.mpr hbatch,
    writeInOrder_total store hnodup]

/-- A collection has the same documents where no batch for an earlier one fails. -/
theorem documents_agree (hsorted : written.Pairwise fun a b => a.1 < b.1) {collection : String}
    (hbefore : ∀ batch ∈ written, batch.1 < collection →
      ∃ counts, store.outcome batch = .ok counts) :
    (Way.write (.together turns fair fun _ => false) store written).2.documents collection
      = (writeInOrder store written).2.documents collection := by
  obtain ⟨hnodup, _⟩ := nodup_of_sorted hsorted
  have hperm := fair written
  obtain ⟨_, hsettled, hothers⟩ := writeTogether_settled store
    ((hperm.map Prod.fst).nodup_iff.mpr hnodup)
  by_cases hcollection : collection ∈ written.map Prod.fst
  · obtain ⟨batch, hbatch, rfl⟩ := List.mem_map.mp hcollection
    obtain ⟨earlier, later, rfl⟩ := List.append_of_mem hbatch
    -- what comes before in the order of collections is known to get through
    have hearlier : ∀ other ∈ earlier, ∃ counts, store.outcome other = .ok counts := by
      intro other hother
      refine hbefore other (List.mem_append_left _ hother) ?_
      exact (List.pairwise_append.mp hsorted).2.2 other hother batch List.mem_cons_self
    rw [writeInOrder_settled hnodup hearlier]
    exact hsettled batch (hperm.mem_iff.mpr hbatch)
  · -- no batch is for the collection, whichever way they are written
    rw [documents_writeInOrder_ne hcollection]
    refine hothers collection ?_
    rwa [(hperm.map Prod.fst).mem_iff]

/-- A save together comes to what a save in order comes to, but for the store. -/
theorem saveOn_of_ok {db : Database} {unit mid : UnitOfWork}
    (hprepare : db.prepare unit = (.ok written, mid)) :
    db.saveOn (.together turns fair fun _ => false) unit store
      = ((writeInOrder store written).1.mapError .store,
        db.finish mid (writeInOrder store written).1,
        (Way.write (.together turns fair fun _ => false) store written).2) := by
  obtain ⟨hnodup, _⟩ := nodup_of_sorted (sorted_of_prepare hprepare)
  rw [← write_agrees turns fair hnodup]
  exact saveBy_of_ok hprepare

end Agreement

/-- No batch for a collection before that of the first failure fails. -/
theorem outcome_of_lt {earlier later : List Batch} {failed : Batch}
    (hsorted : (earlier ++ failed :: later).Pairwise fun a b => a.1 < b.1)
    (hearlier : ∀ batch ∈ earlier, ∃ counts, store.outcome batch = .ok counts)
    {collection : String} (hcollection : collection ≤ failed.1) :
    ∀ batch ∈ earlier ++ failed :: later, batch.1 < collection →
      ∃ counts, store.outcome batch = .ok counts := by
  intro batch hbatch hlt
  have hnot : ¬ failed.1 < collection := String.not_lt.mpr hcollection
  rcases List.mem_append.mp hbatch with hbatch | hbatch
  · exact hearlier batch hbatch
  · -- the batches from the failed one on are not before the collection
    rcases List.mem_cons.mp hbatch with rfl | hlater
    · exact absurd hlt hnot
    · have hbehind := (List.pairwise_cons.mp (List.pairwise_append.mp hsorted).2.1).1 batch hlater
      exact absurd (String.lt_trans hbehind hlt) hnot

end Database

/-- **To save together is as good as to save in order.** Whatever turns the batches are written in,
the result is that of a save in order and so are the changes. If every batch gets through then the
stores have the same documents; if not, then the error is that of the first batch that fails, and
the stores have the same documents up to its collection. Entries have types of the schema, which
finds them by their names. -/
theorem saves_agree (db : Database) (unit : UnitOfWork) (store : MemoryStore)
    (turns : List Batch → List Batch) (fair : ∀ batches, (turns batches).Perm batches) :
    let together := db.saveOn (.together turns fair fun _ => false) unit store
    let inOrder := db.save unit store
    together.1 = inOrder.1 ∧ together.2.1 = inOrder.2.1
    ∧ (∀ err mid, db.prepare unit = (.error err, mid) →
      inOrder.1 = .error err ∧ together.2.2 = store ∧ inOrder.2.2 = store)
    ∧ ∀ written mid, db.prepare unit = (.ok written, mid) →
      (∀ counts : Batch → BulkCounts,
        (∀ batch ∈ written, store.outcome batch = .ok (counts batch)) →
        inOrder.1 = .ok (BulkCounts.addAll (written.map counts)).affected
        ∧ ∀ collection, together.2.2.documents collection = inOrder.2.2.documents collection)
      ∧ ∀ earlier failed later err, written = earlier ++ failed :: later →
        (∀ batch ∈ earlier, ∃ counts, store.outcome batch = .ok counts) →
        store.outcome failed = .error err →
        inOrder.1 = .error (.store err)
        ∧ ∀ collection ≤ failed.1,
          together.2.2.documents collection = inOrder.2.2.documents collection := by
  intro together inOrder
  cases hprepare : db.prepare unit with
  | mk prepared mid =>
    cases prepared with
    -- nothing is written, whichever way the batches would have gone
    | error e =>
      have htogether : together = (.error e, mid, store) := Database.saveBy_of_error hprepare
      have hinOrder : inOrder = (.error e, mid, store) := Database.saveBy_of_error hprepare
      rw [htogether, hinOrder]
      refine ⟨rfl, rfl, ?_, nofun⟩
      intro err mid' h
      cases h
      exact ⟨rfl, rfl, rfl⟩
    | ok written =>
      -- one batch for each collection: then the order of the writes does not matter
      have hsorted := Database.sorted_of_prepare hprepare
      obtain ⟨hnodup, _⟩ := Database.nodup_of_sorted hsorted
      have htotal := Database.writeInOrder_total store hnodup
      have htogether : together = _ := Database.saveOn_of_ok turns fair hprepare
      have hinOrder : inOrder = _ := Database.saveBy_of_ok hprepare
      rw [htogether, hinOrder]
      refine ⟨rfl, rfl, nofun, ?_⟩
      intro written' mid' h
      cases h
      refine ⟨?_, ?_⟩
      · intro counts hcounts
        refine ⟨?_, fun collection => ?_⟩
        · rw [htotal, List.map_congr_left hcounts, total_map_ok]
          rfl
        · exact Database.documents_agree turns fair hsorted fun batch hbatch _ =>
            ⟨_, hcounts batch hbatch⟩
      · rintro earlier failed later err rfl hearlier hfailed
        refine ⟨?_, fun collection hcollection => ?_⟩
        · -- the total is the first error in the order of batches, not of turns
          rw [htotal, Database.total_of_error hearlier hfailed]
          rfl
        · exact Database.documents_agree turns fair hsorted
            (Database.outcome_of_lt hsorted hearlier hcollection)

/-! ## A shelter -/

/-- A schema of pets and their keepers. -/
def shelter : Schema where
  types := { name := "Keeper"
             collection := some "keepers"
             discriminatorValue := some "Keeper"
             key := some ["Id"]
             properties := [⟨"Id", "Keeper", .int32, some "_id", false, false, some .onAdd⟩] }
    :: (pets .onAdd).types
  discriminatorElement := "_t"

/-- A new pet with a new keeper. -/
def shelterUnit : UnitOfWork :=
  petUnit [⟨0, shelter.types.headD default, .added, [("Id", .int 1)], [], none⟩,
    petEntry .onAdd 1 .added 8 3 "Rex"]

/-- What is written for the pet and its keeper. -/
def shelterBatches : List Batch :=
  [("keepers", [.insert [("_id", .int 1)]]), ("pets", [.insert (petDocument 8 3 "Rex")])]

/-- There is a keeper of that id already. When the pet goes first it comes into the store, but what
is said of the save is the same. -/
theorem saves_agree_shelter :
    let store : MemoryStore := ⟨[("keepers", [[("_id", .int 1)]])]⟩
    let together := Database.saveOn ⟨shelter, true⟩
      (.together List.reverse List.reverse_perm fun _ => false) shelterUnit store
    let inOrder := Database.save ⟨shelter, true⟩ shelterUnit store
    together.1 = inOrder.1 ∧ together.2.1 = inOrder.2.1
      ∧ inOrder.1 = .error (.store (.bulkWrite "keepers" "duplicate key 1"))
      ∧ (∀ collection ≤ "keepers",
        together.2.2.documents collection = inOrder.2.2.documents collection)
      ∧ together.2.2.documents "pets" = [petDocument 8 3 "Rex"]
      ∧ inOrder.2.2.documents "pets" = [] := by
  intro store together inOrder
  have hprepare : (Database.prepare ⟨shelter, true⟩ shelterUnit).1 = .ok shelterBatches := by rfl
  obtain ⟨hresult, hunit, _, hwritten⟩ :=
    saves_agree ⟨shelter, true⟩ shelterUnit store List.reverse List.reverse_perm
  obtain ⟨herr, hdocuments⟩ := (hwritten shelterBatches
    (Database.prepare ⟨shelter, true⟩ shelterUnit).2 (by rw [← hprepare])).2 [] _ _
    (.bulkWrite "keepers" "duplicate key 1") rfl nofun (by rfl)
  exact ⟨hresult, hunit, herr, hdocuments, by rfl, by rfl⟩

end Odm
