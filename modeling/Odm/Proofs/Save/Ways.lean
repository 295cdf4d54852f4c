import Mathlib.Data.List.Nodup
import Mathlib.Data.List.Perm.Subperm
import Odm.Proofs.Save.Course

/-!
# Ways of writing

The batches of a save may be written in order or together. When they are written together, nothing
fixes the order in which they get their turns, nor when the save is cancelled; only the results
come back in the order of the batches. A *way* of writing settles all of that. The databases of
this library write together in the order of the batches, which is one of the ways.

To say what a store is asked for, a *recorder* keeps with a store all bulk writes that were made.
Whatever the way, it gets each batch at most once, and if all batches get through then the save
comes to the total of their counts.
-/

namespace Odm

/-! ## Ways -/

/-- A way of writing batches: in order up to the first that fails, or together in turns that are
taken in any order, each unless the save has been cancelled by then. -/
inductive Way (σ : Type) where
  | inOrder
  | together (turns : List Batch → List Batch) (fair : ∀ batches, (turns batches).Perm batches)
      (cancelled : σ → Bool)

namespace Way

variable {σ : Type} [DocumentStore σ]

/-- The results of batches that have been written in turns, in the order of the batches. -/
def collect (turns batches : List Batch) (results : List (Except StoreError BulkCounts)) :
    List (Except StoreError BulkCounts) :=
  batches.filterMap fun batch => (turns.zip results).lookup batch

/-- Batches written in this way; how many documents they affect, or the first failure. -/
def write : Way σ → σ → List Batch → Except StoreError Nat × σ
  | .inOrder, store, batches => Database.writeInOrder store batches
  | .together turns _ cancelled, store, batches =>
    let written := Database.writeTogether cancelled store (turns batches)
    (Database.total (collect (turns batches) batches written.1), written.2)

end Way

/-- A unit of work saved in this way. -/
def Database.saveOn {σ : Type} [DocumentStore σ] (db : Database) (way : Way σ)
    (unit : UnitOfWork) (store : σ) : Except SaveError Nat × UnitOfWork × σ :=
  db.saveBy way.write unit store

/-! ## Results by batch -/

/-- The counts of several bulk writes together. -/
def BulkCounts.addAll (counts : List BulkCounts) : BulkCounts := counts.foldr add {}

theorem BulkCounts.addAll_cons (counts : BulkCounts) (rest : List BulkCounts) :
    addAll (counts :: rest) = counts.add (addAll rest) := rfl

section Collect

variable {turns batches : List Batch} {results : List (Except StoreError BulkCounts)}
  {outcome : Batch → Except StoreError BulkCounts}

theorem lookup_zip_map {batch : Batch} (h : batch ∈ turns) :
    (turns.zip (turns.map outcome)).lookup batch = some (outcome batch) := by
  induction turns with
  | nil => cases h
  | cons first rest ih =>
    rw [List.map_cons, List.zip_cons_cons, List.lookup_cons]
    by_cases hb : batch = first
    · rw [hb, beq_self_eq_true]
    · rw [beq_eq_false_iff_ne.mpr hb]
      exact ih ((List.mem_cons.mp h).resolve_left hb)

/-- **Results by turn are collected to results by batch.** -/
theorem Way.collect_map (h : ∀ batch ∈ batches, batch ∈ turns) :
    collect turns batches (turns.map outcome) = batches.map outcome := by
  induction batches with
  | nil => rfl
  | cons first rest ih =>
    obtain ⟨hfirst, hrest⟩ := List.forall_mem_cons.mp h
    rw [collect, List.filterMap_cons, lookup_zip_map hfirst, List.map_cons, ← ih hrest, collect]

/-- Where no batch has two turns, its result depends on the batch. -/
theorem exists_outcome (hnodup : turns.Nodup) (hlength : results.length = turns.length) :
    ∃ outcome, results = turns.map outcome := by
  induction turns generalizing results with
  | nil => exact ⟨fun _ => .error .cancelled, List.eq_nil_of_length_eq_zero hlength⟩
  | cons first rest ih =>
    obtain ⟨hfirst, hrest⟩ := List.nodup_cons.mp hnodup
    cases results with
    | nil => cases hlength
    | cons result later =>
      obtain ⟨outcome, rfl⟩ := ih hrest (Nat.succ.inj hlength)
      refine ⟨fun batch => if batch = first then result else outcome batch, ?_⟩
      rw [List.map_cons, if_pos rfl]
      -- the first batch has no other turn, so its result is no other batch's
      refine congrArg (result :: ·) (List.map_congr_left ?_)
      intro batch hbatch
      rw [if_neg]
      rintro rfl
      exact hfirst hbatch

theorem total_map_ok (counts : Batch → BulkCounts) :
    Database.total (batches.map fun batch => .ok (counts batch))
      = .ok (BulkCounts.addAll (batches.map counts)).affected := by
  induction batches with
  | nil => rfl
  | cons first rest ih =>
    rw [List.map_cons, Database.total, ih, List.map_cons, BulkCounts.addAll_cons,
      BulkCounts.affected_add]
    rfl

/-- What fails only by being cancelled is cancelled as a whole. -/
theorem total_eq_cancelled (hothers : ∀ r ∈ results, r = .error .cancelled ∨ r.isOk)
    (h : .error .cancelled ∈ results) : Database.total results = .error .cancelled := by
  induction results with
  | nil => cases h
  | cons first rest ih =>
    obtain ⟨hfirst, hrest⟩ := List.forall_mem_cons.mp hothers
    -- the total is that of the first error, and all errors are the same
    cases first with
    | error e =>
      rcases hfirst with hcancelled | hok
      · cases hcancelled
        rfl
      · cases hok
    | ok counts =>
      have hlater := ih hrest ((List.mem_cons.mp h).resolve_left nofun)
      rw [Database.total, hlater]
      rfl

end Collect

namespace Database

variable {σ : Type} [DocumentStore σ] {store store' : σ} {batch : Batch} {rest : List Batch}

theorem writeInOrder_of_error {e : StoreError}
    (h : DocumentStore.bulkWrite store batch.1 batch.2 = (.error e, store')) :
    writeInOrder store (batch :: rest) = (.error e, store') := by
  rw [writeInOrder, h]

theorem writeInOrder_of_ok {counts : BulkCounts}
    (h : DocumentStore.bulkWrite store batch.1 batch.2 = (.ok counts, store')) :
    writeInOrder store (batch :: rest)
      = ((writeInOrder store' rest).1.map (counts.affected + ·),
        (writeInOrder store' rest).2) := by
  rw [writeInOrder, h]

theorem writeTogether_of_cancelled (cancelled : σ → Bool) (h : cancelled store = true) :
    writeTogether cancelled store (batch :: rest)
      = (.error .cancelled :: (writeTogether cancelled store rest).1,
        (writeTogether cancelled store rest).2) := by
  rw [writeTogether, DocumentStore.bulkWriteUnless, if_pos h]

theorem writeTogether_of_written (cancelled : σ → Bool) {result : Except StoreError BulkCounts}
    (hcancelled : cancelled store = false)
    (h : DocumentStore.bulkWrite store batch.1 batch.2 = (result, store')) :
    writeTogether cancelled store (batch :: rest)
      = (result :: (writeTogether cancelled store' rest).1,
        (writeTogether cancelled store' rest).2) := by
  rw [writeTogether, DocumentStore.bulkWriteUnless, hcancelled, h]
  rfl

omit [DocumentStore σ] in
theorem saveBy_of_error {db : Database} {unit mid : UnitOfWork} {e : SaveError}
    {write : σ → List Batch → Except StoreError Nat × σ} (h : db.prepare unit = (.error e, mid)) :
    db.saveBy write unit store = (.error e, mid, store) := by
  rw [saveBy, h]

omit [DocumentStore σ] in
theorem saveBy_of_ok {db : Database} {unit mid : UnitOfWork} {written : List Batch}
    {write : σ → List Batch → Except StoreError Nat × σ}
    (h : db.prepare unit = (.ok written, mid)) :
    db.saveBy write unit store
      = ((write store written).1.mapError .store, db.finish mid (write store written).1,
        (write store written).2) := by
  rw [saveBy, h]

theorem length_writeTogether (cancelled : σ → Bool) (batches : List Batch) :
    ∀ store : σ, (writeTogether cancelled store batches).1.length = batches.length := by
  induction batches with
  | nil => exact fun _ => rfl
  | cons first rest ih =>
    intro store
    rw [writeTogether, List.length_cons, List.length_cons, ih]

/-- The batches of a save are for different collections, in ascending order. -/
theorem sorted_of_prepare {db : Database} {unit mid : UnitOfWork} {written : List Batch}
    (h : db.prepare unit = (.ok written, mid)) :
    written.Pairwise fun a b => a.1 < b.1 := by
  obtain ⟨course, hcourse, rfl⟩ := prepare_course h
  exact hcourse.sorted_batches

theorem nodup_of_sorted {written : List Batch} (h : written.Pairwise fun a b => a.1 < b.1) :
    (written.map Prod.fst).Nodup ∧ written.Nodup := by
  have hnames : (written.map Prod.fst).Nodup := Table.Sorted.nodup_keys h
  exact ⟨hnames, hnames.of_map Prod.fst⟩

/-- **To save together is a way of saving**, with the turns in the order of the batches. -/
theorem saveOn_together (db : Database) (cancelled : σ → Bool) (unit : UnitOfWork) (store : σ) :
    db.saveOn (.together id (fun _ => .refl _) cancelled) unit store
      = db.saveTogether cancelled unit store := by
  unfold saveOn saveTogether saveBy
  split
  · rfl
  · rename_i written mid hprepare
    obtain ⟨_, hnodup⟩ := nodup_of_sorted (sorted_of_prepare hprepare)
    obtain ⟨outcome, houtcome⟩ := exists_outcome hnodup
      (length_writeTogether cancelled written store)
    have hcollect : Way.collect written written (writeTogether cancelled store written).1
        = (writeTogether cancelled store written).1 := by
      rw [houtcome, Way.collect_map fun _ h => h]
    simp only [Way.write, id, hcollect]

/-- To save in order is another one. -/
theorem saveOn_inOrder (db : Database) (unit : UnitOfWork) (store : σ) :
    db.saveOn .inOrder unit store = db.save unit store := rfl

end Database

/-! ## Recorders -/

/-- A bulk write that was made, and what came of it. -/
structure BulkWrite where
  batch : Batch
  result : Except StoreError BulkCounts

/-- A store with all bulk writes that were made to it. -/
structure Recorder (σ : Type) where
  store : σ
  writes : List BulkWrite := []

variable {σ : Type} [DocumentStore σ]

instance : DocumentStore (Recorder σ) where
  bulkWrite recorder collection directives :=
    let (result, store) := DocumentStore.bulkWrite recorder.store collection directives
    (result, ⟨store, recorder.writes ++ [⟨(collection, directives), result⟩]⟩)

theorem Recorder.bulkWrite_eq {recorder : Recorder σ} {batch : Batch} {store : σ}
    {result : Except StoreError BulkCounts}
    (h : DocumentStore.bulkWrite recorder.store batch.1 batch.2 = (result, store)) :
    DocumentStore.bulkWrite recorder batch.1 batch.2
      = (result, ⟨store, recorder.writes ++ [⟨batch, result⟩]⟩) := by
  simp only [DocumentStore.bulkWrite, h]

/-- The same way of writing to a recorded store. -/
def Way.recorded : Way σ → Way (Recorder σ)
  | .inOrder => .inOrder
  | .together turns fair cancelled => .together turns fair (cancelled ∘ Recorder.store)

namespace Database

theorem writeInOrder_recorder (batches : List Batch) : ∀ recorder : Recorder σ,
    (writeInOrder recorder batches).1 = (writeInOrder recorder.store batches).1
      ∧ (writeInOrder recorder batches).2.store = (writeInOrder recorder.store batches).2 := by
  induction batches with
  | nil => exact fun _ => ⟨rfl, rfl⟩
  | cons batch rest ih =>
    intro recorder
    -- the recorder asks its store and notes what was asked
    cases hbulk : DocumentStore.bulkWrite recorder.store batch.1 batch.2 with
    | mk result store =>
      cases result with
      | error e =>
        rw [writeInOrder_of_error (Recorder.bulkWrite_eq hbulk), writeInOrder_of_error hbulk]
        exact ⟨rfl, rfl⟩
      | ok counts =>
        rw [writeInOrder_of_ok (Recorder.bulkWrite_eq hbulk), writeInOrder_of_ok hbulk]
        obtain ⟨hresult, hstore⟩ := ih ⟨store, recorder.writes ++ [⟨batch, .ok counts⟩]⟩
        exact ⟨congrArg (Except.map _) hresult, hstore⟩

theorem writeTogether_recorder (cancelled : σ → Bool) (batches : List Batch) :
    ∀ recorder : Recorder σ,
      (writeTogether (cancelled ∘ Recorder.store) recorder batches).1
          = (writeTogether cancelled recorder.store batches).1
        ∧ (writeTogether (cancelled ∘ Recorder.store) recorder batches).2.store
          = (writeTogether cancelled recorder.store batches).2 := by
  induction batches with
  | nil => exact fun _ => ⟨rfl, rfl⟩
  | cons batch rest ih =>
    intro recorder
    cases hcancelled : cancelled recorder.store with
    -- whether to cancel is asked of the recorded store, so both runs cancel alike
    | true =>
      rw [writeTogether_of_cancelled cancelled hcancelled,
        writeTogether_of_cancelled (cancelled ∘ Recorder.store) hcancelled]
      obtain ⟨hresults, hstore⟩ := ih recorder
      exact ⟨congrArg _ hresults, hstore⟩
    | false =>
      cases hbulk : DocumentStore.bulkWrite recorder.store batch.1 batch.2 with
      | mk result store =>
        rw [writeTogether_of_written cancelled hcancelled hbulk, writeTogether_of_written
          (cancelled ∘ Recorder.store) hcancelled (Recorder.bulkWrite_eq hbulk)]
        obtain ⟨hresults, hstore⟩ := ih ⟨store, recorder.writes ++ [⟨batch, result⟩]⟩
        exact ⟨congrArg _ hresults, hstore⟩

/-- **Recording changes nothing else.** -/
theorem saveOn_recorded (db : Database) (way : Way σ) (unit : UnitOfWork)
    (recorder : Recorder σ) :
    (db.saveOn way.recorded unit recorder).1 = (db.saveOn way unit recorder.store).1
      ∧ (db.saveOn way.recorded unit recorder).2.1 = (db.saveOn way unit recorder.store).2.1
      ∧ (db.saveOn way.recorded unit recorder).2.2.store
        = (db.saveOn way unit recorder.store).2.2 := by
  have hwrite : ∀ written, (way.recorded.write recorder written).1
        = (way.write recorder.store written).1
      ∧ (way.recorded.write recorder written).2.store
        = (way.write recorder.store written).2 := by
    intro written
    cases way with
    | inOrder => exact writeInOrder_recorder written recorder
    | together turns fair cancelled =>
      obtain ⟨hresults, hstore⟩ := writeTogether_recorder cancelled (turns written) recorder
      exact ⟨by simp only [Way.recorded, Way.write, hresults], hstore⟩
  unfold saveOn
  cases hprepare : db.prepare unit with
  | mk prepared mid =>
    cases prepared with
    | error e =>
      rw [saveBy_of_error hprepare, saveBy_of_error hprepare]
      exact ⟨rfl, rfl, rfl⟩
    | ok written =>
      obtain ⟨hresult, hstore⟩ := hwrite written
      rw [saveBy_of_ok hprepare, saveBy_of_ok hprepare, hresult]
      exact ⟨rfl, rfl, hstore⟩

end Database

/-! ## What a store is asked for -/

/-- The bulk writes of batches that are written together, with their results: a cancelled batch
is not written. -/
inductive SentTogether :
    List Batch → List (Except StoreError BulkCounts) → List BulkWrite → Prop where
  | nil : SentTogether [] [] []
  | written {batch : Batch} {batches : List Batch} {result : Except StoreError BulkCounts}
      {results : List (Except StoreError BulkCounts)} {writes : List BulkWrite} :
    SentTogether batches results writes →
    SentTogether (batch :: batches) (result :: results) (⟨batch, result⟩ :: writes)
  | cancelled {batch : Batch} {batches : List Batch}
      {results : List (Except StoreError BulkCounts)} {writes : List BulkWrite} :
    SentTogether batches results writes →
    SentTogether (batch :: batches) (.error .cancelled :: results) writes

/-- The bulk writes of batches that are written in order, with the result of all: the first that
fails is the last one. -/
inductive SentInOrder : List Batch → Except StoreError Nat → List BulkWrite → Prop where
  | nil : SentInOrder [] (.ok 0) []
  | failed {batch : Batch} {batches : List Batch} {e : StoreError} :
    SentInOrder (batch :: batches) (.error e) [⟨batch, .error e⟩]
  | written {batch : Batch} {batches : List Batch} {counts : BulkCounts}
      {result : Except StoreError Nat} {writes : List BulkWrite} :
    SentInOrder batches result writes →
    SentInOrder (batch :: batches) (result.map (counts.affected + ·))
      (⟨batch, .ok counts⟩ :: writes)

namespace Database

theorem writeTogether_sent (cancelled : Recorder σ → Bool) (batches : List Batch) :
    ∀ recorder : Recorder σ, ∃ writes,
      (writeTogether cancelled recorder batches).2.writes = recorder.writes ++ writes
        ∧ SentTogether batches (writeTogether cancelled recorder batches).1 writes := by
  induction batches with
  | nil => exact fun _ => ⟨[], (List.append_nil _).symm, .nil⟩
  | cons batch rest ih =>
    intro recorder
    cases hcancelled : cancelled recorder with
    | true =>
      rw [writeTogether_of_cancelled cancelled hcancelled]
      obtain ⟨writes, hwrites, hsent⟩ := ih recorder
      exact ⟨writes, hwrites, .cancelled hsent⟩
    | false =>
      rw [writeTogether_of_written cancelled hcancelled (Recorder.bulkWrite_eq rfl)]
      obtain ⟨writes, hwrites, hsent⟩ := ih _
      exact ⟨_, hwrites.trans (List.append_assoc _ _ _), .written hsent⟩

theorem writeInOrder_sent (batches : List Batch) :
    ∀ recorder : Recorder σ, ∃ writes,
      (writeInOrder recorder batches).2.writes = recorder.writes ++ writes
        ∧ SentInOrder batches (writeInOrder recorder batches).1 writes := by
  induction batches with
  | nil => exact fun _ => ⟨[], (List.append_nil _).symm, .nil⟩
  | cons batch rest ih =>
    intro recorder
    cases hbulk : DocumentStore.bulkWrite recorder.store batch.1 batch.2 with
    | mk result store =>
      cases result with
      | error e =>
        rw [writeInOrder_of_error (Recorder.bulkWrite_eq hbulk)]
        exact ⟨_, rfl, .failed⟩
      | ok counts =>
        rw [writeInOrder_of_ok (Recorder.bulkWrite_eq hbulk)]
        obtain ⟨writes, hwrites, hsent⟩ := ih ⟨store, recorder.writes ++ [⟨batch, .ok counts⟩]⟩
        exact ⟨_, hwrites.trans (List.append_assoc _ _ _), .written hsent⟩

end Database

section Sent

variable {batches : List Batch} {writes : List BulkWrite} {counts : Batch → BulkCounts}

theorem SentTogether.sublist {results : List (Except StoreError BulkCounts)}
    (h : SentTogether batches results writes) : (writes.map (·.batch)).Sublist batches := by
  induction h with
  | nil => exact .slnil
  | written _ ih => exact ih.cons_cons _
  | cancelled _ ih => exact ih.cons _

theorem SentInOrder.sublist {result : Except StoreError Nat}
    (h : SentInOrder batches result writes) : (writes.map (·.batch)).Sublist batches := by
  induction h with
  | nil => exact .slnil
  | failed => exact (List.nil_sublist _).cons_cons _
  | written _ ih => exact ih.cons_cons _

/-- Where nothing is cancelled, every batch is written. -/
theorem SentTogether.batches_eq {results : List (Except StoreError BulkCounts)}
    (h : SentTogether batches results writes) (hnone : .error .cancelled ∉ results) :
    writes.map (·.batch) = batches := by
  induction h with
  | nil => rfl
  | written _ ih => rw [List.map_cons, ih fun hlater => hnone (List.mem_cons_of_mem _ hlater)]
  | cancelled _ _ => exact absurd List.mem_cons_self hnone

/-- Where no write fails, every batch is written. -/
theorem SentInOrder.batches_eq {result : Except StoreError Nat}
    (h : SentInOrder batches result writes) (hok : ∀ w ∈ writes, w.result.isOk) :
    writes.map (·.batch) = batches := by
  induction h with
  | nil => rfl
  | failed => cases hok _ List.mem_cons_self
  | written _ ih => rw [List.map_cons, ih fun w hw => hok w (List.mem_cons_of_mem _ hw)]

/-- The result of a batch is that of its write, or that it was cancelled. -/
theorem SentTogether.result_of_mem {results : List (Except StoreError BulkCounts)}
    (h : SentTogether batches results writes) :
    ∀ r ∈ results, r = .error .cancelled ∨ ∃ w ∈ writes, w.result = r := by
  induction h with
  | nil => nofun
  | written _ ih =>
    refine List.forall_mem_cons.mpr ⟨.inr ⟨_, List.mem_cons_self, rfl⟩, fun r hr => ?_⟩
    refine (ih r hr).imp_right ?_
    rintro ⟨w, hw, hresult⟩
    exact ⟨w, List.mem_cons_of_mem _ hw, hresult⟩
  | cancelled _ ih => exact List.forall_mem_cons.mpr ⟨.inl rfl, ih⟩

/-- A write has the result that its batch has. -/
theorem SentTogether.outcome_eq {outcome : Batch → Except StoreError BulkCounts}
    (h : SentTogether batches (batches.map outcome) writes) :
    ∀ w ∈ writes, outcome w.batch = w.result := by
  generalize hresults : batches.map outcome = results at h
  induction h with
  | nil => nofun
  | written _ ih =>
    obtain ⟨hresult, hresults⟩ := List.cons.inj hresults
    exact List.forall_mem_cons.mpr ⟨hresult, ih hresults⟩
  | cancelled _ ih => exact ih (List.cons.inj hresults).2

/-- Batches in order that all get through come to the total of their counts. -/
theorem SentInOrder.result_eq {result : Except StoreError Nat}
    (h : SentInOrder batches result writes) (hnodup : batches.Nodup)
    (hcounts : ∀ batch ∈ batches, ⟨batch, .ok (counts batch)⟩ ∈ writes) :
    result = .ok (BulkCounts.addAll (batches.map counts)).affected := by
  induction h with
  | nil => rfl
  | failed =>
    obtain ⟨hfailed, _⟩ := List.forall_mem_cons.mp hcounts
    cases List.mem_singleton.mp hfailed
  | @written batch batches counts' result writes hsent ih =>
    obtain ⟨hnew, hnodup⟩ := List.nodup_cons.mp hnodup
    obtain ⟨hfirst, hrest⟩ := List.forall_mem_cons.mp hcounts
    -- the writes that come later are for other batches
    have hlater : ∀ w ∈ writes, w.batch ≠ batch := by
      rintro w hw rfl
      exact hnew (hsent.sublist.subset (List.mem_map_of_mem hw))
    rcases List.mem_cons.mp hfirst with hfirst | hfirst
    · cases hfirst
      have hresult := ih hnodup fun other hother => by
        refine (List.mem_cons.mp (hrest other hother)).resolve_left ?_
        intro heq
        cases heq
        exact hnew hother
      rw [hresult, List.map_cons, BulkCounts.addAll_cons, BulkCounts.affected_add]
      rfl
    · exact absurd rfl (hlater _ hfirst)

end Sent

/-- **A store is asked for each batch at most once**, and for all of them unless a write fails or
the batches are cancelled. If all get through then the batches come to the total of their
counts. -/
theorem Way.write_sent (way : Way (Recorder σ)) (recorder : Recorder σ) {batches : List Batch}
    (hnodup : batches.Nodup) :
    ∃ writes, (way.write recorder batches).2.writes = recorder.writes ++ writes
      ∧ (writes.map (·.batch)).Subperm batches
      ∧ ((∀ w ∈ writes, w.result.isOk) → (way.write recorder batches).1 ≠ .error .cancelled →
        (writes.map (·.batch)).Perm batches)
      ∧ ∀ counts : Batch → BulkCounts,
        (∀ batch ∈ batches, ⟨batch, .ok (counts batch)⟩ ∈ writes) →
        (way.write recorder batches).1
          = .ok (BulkCounts.addAll (batches.map counts)).affected := by
  cases way with
  | inOrder =>
    obtain ⟨writes, hwrites, hsent⟩ := Database.writeInOrder_sent batches recorder
    exact ⟨writes, hwrites, hsent.sublist.subperm,
      fun hok _ => List.Perm.of_eq (hsent.batches_eq hok), fun _ => hsent.result_eq hnodup⟩
  | together turns fair cancelled =>
    have hperm := fair batches
    obtain ⟨writes, hwrites, hsent⟩ :=
      Database.writeTogether_sent cancelled (turns batches) recorder
    refine ⟨writes, hwrites, hsent.sublist.subperm.trans hperm.subperm, ?_⟩
    obtain ⟨outcome, houtcome⟩ := exists_outcome (hperm.nodup_iff.mpr hnodup)
      (Database.length_writeTogether cancelled (turns batches) recorder)
    rw [houtcome] at hsent
    rw [Way.write, houtcome, collect_map fun batch hbatch => hperm.mem_iff.mpr hbatch]
    refine ⟨?_, ?_⟩
    · intro hok hresult
      refine (List.Perm.of_eq (hsent.batches_eq fun hcancelled => hresult ?_)).trans hperm
      -- a batch that is cancelled is the only kind that fails, so it decides the result
      refine total_eq_cancelled ?_ ((hperm.map outcome).mem_iff.mp hcancelled)
      intro r hr
      refine (hsent.result_of_mem r ((hperm.map outcome).mem_iff.mpr hr)).imp_right ?_
      rintro ⟨w, hw, rfl⟩
      exact hok w hw
    · intro counts hcounts
      have hbatches : batches.map outcome = batches.map fun batch => .ok (counts batch) :=
        List.map_congr_left fun batch hbatch => hsent.outcome_eq _ (hcounts batch hbatch)
      rw [hbatches, total_map_ok]

end Odm
