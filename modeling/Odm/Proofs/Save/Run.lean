import Odm.Proofs.Save.Course

/-!
# Saves that interleave

Any number of units of work may be saved to one store, through databases of one schema. What
they have in common is that the store gets whole batches, each of them from the course of some
save. A *run* is such a succession of batches, whichever save each is from and whether or not the
others of that save are ever written.

The *history* of a run has one step for each directive that was applied. The steps of one
collection form a thread: each begins with the documents that the step before it has left.
-/

namespace Odm

/-- A directive applied to a collection: the turn that made it, and what the documents were
before and after. -/
structure Step where
  collection : String
  turn : Turn
  before : List Document
  after : List Document

/-- The steps of a batch, up to the first directive that cannot be applied. -/
def steps (collection : String) : List Document → List Turn → List Step
  | _, [] => []
  | documents, turn :: rest =>
    match Collection.apply turn.directive documents with
    | .error _ => []
    | .ok (_, documents') =>
      ⟨collection, turn, documents, documents'⟩ :: steps collection documents' rest

/-- The types of all entries are those of the schema. -/
def UnitOfWork.Typed (s : Schema) (unit : UnitOfWork) : Prop :=
  ∀ e ∈ unit.changes.entries, s.find? e.entityType.name = some e.entityType

/-- Batches of any saves, written to a store in any order. -/
inductive Run (s : Schema) : MemoryStore → List Step → MemoryStore → Prop where
  | nil {store : MemoryStore} : Run s store [] store
  | write {store store' : MemoryStore} {history : List Step} {unit mid : UnitOfWork}
      {course : List (String × List Turn)} {collection : String} {turns : List Turn} :
    Run s store history store' → unit.Typed s → Course s unit course mid →
    (collection, turns) ∈ course →
    Run s store (history ++ steps collection (store'.documents collection) turns)
      (store'.bulkWrite collection (turns.map (·.directive))).2

/-! ## Saves are runs -/

section Saves

variable {db : Database} {store store' : MemoryStore} {history : List Step}
  {unit mid : UnitOfWork} {course : List (String × List Turn)}

theorem Run.writeInOrder (htyped : unit.Typed db.schema)
    (hcourse : Course db.schema unit course mid) :
    ∀ {part : List (String × List Turn)} {store' : MemoryStore} {history : List Step},
      (∀ batch ∈ part, batch ∈ course) → Run db.schema store history store' →
      ∃ later, Run db.schema store (history ++ later)
        (Database.writeInOrder store' (batches part)).2 := by
  intro part
  induction part with
  | nil =>
    intro store' history _ hrun
    exact ⟨[], by rw [List.append_nil]; exact hrun⟩
  | cons batch rest ih =>
    obtain ⟨collection, turns⟩ := batch
    intro store' history hpart hrun
    obtain ⟨hbatch, hrest⟩ := List.forall_mem_cons.mp hpart
    have hwrite := Run.write hrun htyped hcourse hbatch
    rw [batches, List.map_cons, Database.writeInOrder, ← batches]
    cases hbulk : DocumentStore.bulkWrite store' collection (turns.map (·.directive)) with
    | mk result store₁ =>
      have hstore : (store'.bulkWrite collection (turns.map (·.directive))).2 = store₁ :=
        congrArg Prod.snd hbulk
      rw [hstore] at hwrite
      cases result with
      | error e => exact ⟨_, hwrite⟩ -- what the failed batch did before it failed counts
      | ok counts =>
        obtain ⟨later, hlater⟩ := ih hrest hwrite
        rw [List.append_assoc] at hlater
        exact ⟨_, hlater⟩

theorem Run.writeTogether (htyped : unit.Typed db.schema)
    (hcourse : Course db.schema unit course mid) (cancelled : MemoryStore → Bool) :
    ∀ {part : List (String × List Turn)} {store' : MemoryStore} {history : List Step},
      (∀ batch ∈ part, batch ∈ course) → Run db.schema store history store' →
      ∃ later, Run db.schema store (history ++ later)
        (Database.writeTogether cancelled store' (batches part)).2 := by
  intro part
  induction part with
  | nil =>
    intro store' history _ hrun
    exact ⟨[], by rw [List.append_nil]; exact hrun⟩
  | cons batch rest ih =>
    obtain ⟨collection, turns⟩ := batch
    intro store' history hpart hrun
    obtain ⟨hbatch, hrest⟩ := List.forall_mem_cons.mp hpart
    rw [batches, List.map_cons, Database.writeTogether, ← batches]
    -- a batch that is cancelled adds nothing to the history
    by_cases hcancelled : cancelled store' = true
    · rw [hcancelled]
      exact ih hrest hrun
    · rw [Bool.not_eq_true] at hcancelled
      rw [hcancelled]
      obtain ⟨later, hlater⟩ := ih hrest (Run.write hrun htyped hcourse hbatch)
      rw [List.append_assoc] at hlater
      exact ⟨_, hlater⟩

/-- A save of either kind writes batches of one course or nothing at all. -/
theorem Run.saveBy {write : MemoryStore → List Batch → Except StoreError Nat × MemoryStore}
    (hwrite : ∀ course mid, Course db.schema unit course mid →
      ∃ later, Run db.schema store (history ++ later) (write store' (batches course)).2)
    (hrun : Run db.schema store history store') :
    ∃ later, Run db.schema store (history ++ later) (db.saveBy write unit store').2.2 := by
  unfold Database.saveBy
  split
  · exact ⟨[], by rw [List.append_nil]; exact hrun⟩
  · rename_i written mid hprepare
    obtain ⟨course, hcourse, rfl⟩ := Database.prepare_course hprepare
    exact hwrite course mid hcourse

/-- **A run goes on with a save in order**, whatever comes of it. -/
theorem Run.save (hrun : Run db.schema store history store') (htyped : unit.Typed db.schema) :
    ∃ later, Run db.schema store (history ++ later) (db.save unit store').2.2 :=
  hrun.saveBy fun _ _ hcourse => writeInOrder htyped hcourse (fun _ h => h) hrun

/-- **A run goes on with a save together**, cancelled or not. -/
theorem Run.saveTogether (hrun : Run db.schema store history store')
    (htyped : unit.Typed db.schema) (cancelled : MemoryStore → Bool) :
    ∃ later, Run db.schema store (history ++ later)
      (db.saveTogether cancelled unit store').2.2 :=
  hrun.saveBy fun _ _ hcourse => writeTogether htyped hcourse cancelled (fun _ h => h) hrun

end Saves

/-! ## Steps -/

/-- What is known of a step: it is from the turn of an entry of the collection, and it has the
effect of the turn's directive. -/
structure Step.Sound (s : Schema) (step : Step) (e : Entry) : Prop where
  entry : step.turn.before.changes.entry? step.turn.id = some e
  typed : s.find? e.entityType.name = some e.entityType
  collectionName : s.collectionName e.entityType.name = .ok step.collection
  written : Written s step.turn.before step.turn.id e step.turn.directive step.turn.after
  effect : Collection.Effect step.turn.directive step.before step.after

theorem mem_steps {collection : String} {step : Step} {turns : List Turn} :
    ∀ {documents : List Document}, step ∈ steps collection documents turns →
      step.collection = collection ∧ step.turn ∈ turns
        ∧ Collection.Effect step.turn.directive step.before step.after := by
  induction turns with
  | nil => intro documents h; cases h
  | cons turn rest ih =>
    intro documents h
    rw [steps] at h
    split at h
    · cases h
    · rename_i counts documents' happly
      rcases List.mem_cons.mp h with rfl | h
      · exact ⟨rfl, List.mem_cons_self, Collection.apply_effect happly⟩
      · obtain ⟨hcollection, hturn, heffect⟩ := ih h
        exact ⟨hcollection, List.mem_cons_of_mem _ hturn, heffect⟩

theorem UnitOfWork.Typed.of_outlines {s : Schema} {unit : UnitOfWork} {changes : ChangeSet}
    {id : Nat} {e : Entry} (h : unit.Typed s) (hout : changes.outlines = unit.changes.outlines)
    (he : changes.entry? id = some e) : s.find? e.entityType.name = some e.entityType := by
  obtain ⟨e₀, he₀, hout₀⟩ := ChangeSet.entry?_of_outlines hout he
  rw [Entry.entityType_of_outline hout₀]
  exact h e₀ (List.mem_of_getElem? he₀)

/-- **Every step of a run is sound.** -/
theorem Run.sound {s : Schema} {store store' : MemoryStore} {history : List Step}
    (h : Run s store history store') : ∀ step ∈ history, ∃ e, step.Sound s e := by
  induction h with
  | nil => nofun
  | write _ htyped hcourse hmem ih =>
    intro step hstep
    rcases List.mem_append.mp hstep with hearlier | hlater
    · exact ih step hearlier
    · obtain ⟨rfl, hturn, heffect⟩ := mem_steps hlater
      obtain ⟨e, he, hname, hout, hwritten⟩ := hcourse.mem_turn hmem hturn
      exact ⟨e, he, htyped.of_outlines hout he, hname, hwritten, heffect⟩

/-! ## Threads -/

/-- The steps of one collection follow on from each other. -/
inductive Thread (collection : String) : List Document → List Step → List Document → Prop where
  | nil {documents : List Document} : Thread collection documents [] documents
  | here {step : Step} {rest : List Step} {documents : List Document} :
    step.collection = collection → Thread collection step.after rest documents →
    Thread collection step.before (step :: rest) documents
  | elsewhere {step : Step} {rest : List Step} {documents documents' : List Document} :
    step.collection ≠ collection → Thread collection documents rest documents' →
    Thread collection documents (step :: rest) documents'

namespace Thread

variable {collection : String}

theorem append {xs ys : List Step} {documents documents' documents'' : List Document}
    (hxs : Thread collection documents xs documents')
    (hys : Thread collection documents' ys documents'') :
    Thread collection documents (xs ++ ys) documents'' := by
  induction hxs with
  | nil => exact hys
  | here h _ ih => exact .here h (ih hys)
  | elsewhere h _ ih => exact .elsewhere h (ih hys)

theorem of_forall_ne {documents : List Document} {history : List Step}
    (h : ∀ step ∈ history, step.collection ≠ collection) :
    Thread collection documents history documents := by
  induction history with
  | nil => exact .nil
  | cons step rest ih =>
    obtain ⟨hstep, hrest⟩ := List.forall_mem_cons.mp h
    exact .elsewhere hstep (ih hrest)

theorem of_steps (collection : String) (turns : List Turn) : ∀ documents : List Document,
    Thread collection documents (steps collection documents turns)
      (Collection.applyAll documents (turns.map (·.directive))).2 := by
  induction turns with
  | nil => exact fun _ => .nil
  | cons turn rest ih =>
    intro documents
    rw [steps, List.map_cons, Collection.applyAll]
    cases Collection.apply turn.directive documents with
    | error reason => exact .nil
    | ok result =>
      obtain ⟨counts, documents'⟩ := result
      have hstep : Step.collection ⟨collection, turn, documents, documents'⟩ = collection := rfl
      exact .here hstep (ih documents')

end Thread

/-- **The steps of a run are a thread for each collection.** -/
theorem Run.thread {s : Schema} {store store' : MemoryStore} {history : List Step}
    (h : Run s store history store') (collection : String) :
    Thread collection (store.documents collection) history (store'.documents collection) := by
  induction h with
  | nil => exact .nil
  | @write _ _ _ _ _ c turns _ _ _ _ ih =>
    refine ih.append ?_
    by_cases hc : collection = c
    · subst hc
      rw [MemoryStore.documents_bulkWrite_self]
      exact .of_steps collection turns _
    · rw [MemoryStore.documents_bulkWrite_ne _ _ hc]
      refine .of_forall_ne ?_
      intro step hstep
      rw [(mem_steps hstep).1]
      exact Ne.symm hc

end Odm
