import Odm.Proofs.Store.Effect
import Odm.Proofs.Table

/-!
# The ids of stored documents

Documents of a collection are told apart by their ids. An insert is refused if another document
has the id of the new one, and a delete only takes a document away, so neither leads to two
documents with one id. A replacement comes to the place of the document that was found, and is
compared with no other one. It *doubles* an id if it has that of a document that stays.

So the documents that a series of bulk writes leaves behind are told apart at every moment just if
no replace doubles an id. No replace does that if each replacement has the id that its filter asks
for.
-/

namespace Odm

/-- A replacement has no id, or the one that the filter asks for. -/
def Directive.KeepsId : Directive → Prop
  | .replace filter replacement => ∀ id ∈ replacement.get? idElement,
      id ≠ .null ∧ filter.get? idElement = some id
  | .insert _ | .delete _ => True

instance : DecidablePred Directive.KeepsId
  | .replace filter replacement => inferInstanceAs (Decidable (∀ id ∈ replacement.get? idElement,
      id ≠ .null ∧ filter.get? idElement = some id))
  | .insert _ | .delete _ => isTrue trivial

namespace Collection

/-- The ids of those documents that have one. -/
def ids (documents : List Document) : List Value := documents.filterMap (·.get? idElement)

/-- No two documents have the same id. -/
def ToldApart (documents : List Document) : Prop := (ids documents).Nodup

instance (documents : List Document) : Decidable (ToldApart documents) :=
  inferInstanceAs (Decidable (ids documents).Nodup)

/-- A replace gives the document that it finds the id of one of those that stay. -/
def Doubles (directive : Directive) (documents : List Document) : Prop :=
  match directive with
  | .replace filter replacement => (∃ d ∈ documents, d.Matches filter)
    ∧ ∃ id ∈ replacement.get? idElement, id ∈ ids (deleteFirst filter documents)
  | .insert _ | .delete _ => False

variable {directive : Directive} {documents documents' : List Document} {counts : BulkCounts}

/-! ## One directive -/

theorem ids_append (before after : List Document) :
    ids (before ++ after) = ids before ++ ids after := List.filterMap_append

theorem ids_cons (document : Document) (rest : List Document) :
    ids (document :: rest) = (document.get? idElement).toList ++ ids rest := by
  rw [ids, List.filterMap_cons]
  cases document.get? idElement <;> rfl

/-- The ids of a document among others can be moved to the front. -/
theorem ids_middle_perm (before after : List Document) (document : Document) :
    (ids (before ++ document :: after)).Perm
      ((document.get? idElement).toList ++ ids (before ++ after)) := by
  rw [ids_append, ids_cons, ids_append]
  exact List.perm_append_comm_assoc _ _ _

/-- One document is told apart from others if they are told apart and none has its id. -/
theorem toldApart_middle_iff {before after : List Document} {document : Document} :
    ToldApart (before ++ document :: after)
      ↔ (∀ id ∈ document.get? idElement, id ∉ ids (before ++ after))
        ∧ ToldApart (before ++ after) := by
  rw [ToldApart, (ids_middle_perm before after document).nodup_iff]
  cases document.get? idElement with
  | none => simp [ToldApart]
  | some id => simp [ToldApart]

theorem isTaken_eq_false_iff {document : Document} :
    isTaken documents document = false
      ↔ ∀ id ∈ document.get? idElement, id ∉ ids documents := by
  rw [isTaken]
  cases document.get? idElement with
  | none => simp
  | some id => simp [ids]

/-- **A directive keeps documents told apart, if it does not double an id.** -/
theorem toldApart_apply_iff (hapart : ToldApart documents)
    (h : apply directive documents = .ok (counts, documents')) :
    ToldApart documents' ↔ ¬ Doubles directive documents := by
  cases directive with
  | insert document =>
    simp only [apply] at h
    split at h
    · cases h
    · rename_i hfree
      cases h
      -- an insert is applied only where its id is free
      refine iff_of_true ?_ id
      have hnew := isTaken_eq_false_iff.mp (Bool.eq_false_iff.mpr hfree)
      refine toldApart_middle_iff.mpr ?_
      rw [List.append_nil]
      exact ⟨hnew, hapart⟩
  | delete filter =>
    cases h
    refine iff_of_true ?_ id
    rcases miss_or_hit filter documents with hmiss | ⟨before, found, after, rfl, hb, hf⟩
    · rw [deleteFirst_of_miss hmiss]
      exact hapart
    · rw [deleteFirst_of_hit hb hf]
      -- to take a document away leaves the others told apart
      exact (toldApart_middle_iff.mp hapart).2
  | replace filter replacement =>
    cases h
    rcases miss_or_hit filter documents with hmiss | ⟨before, found, after, rfl, hb, hf⟩
    · rw [replaceFirst_of_miss hmiss]
      refine iff_of_true hapart ?_
      -- a replace that misses changes nothing, and doubles nothing
      rintro ⟨⟨d, hd, hfound⟩, _⟩
      exact hmiss d hd hfound
    · -- the replacement is told apart from the others just if its id is not among theirs
      have hothers := (toldApart_middle_iff.mp hapart).2
      have hfound : ∃ d ∈ before ++ found :: after, d.Matches filter :=
        ⟨found, List.mem_append_right _ List.mem_cons_self, hf⟩
      rw [replaceFirst_of_hit hb hf, toldApart_middle_iff, Doubles, deleteFirst_of_hit hb hf]
      simp only [hothers, hfound, and_true, true_and, not_exists, not_and]

/-- **A directive that keeps ids doubles none**: what the filter finds has the id of the
replacement already. -/
theorem not_doubles_of_keepsId (hapart : ToldApart documents) (hkeeps : directive.KeepsId) :
    ¬ Doubles directive documents := by
  cases directive with
  | insert document => exact id
  | delete filter => exact id
  | replace filter replacement =>
    rintro ⟨⟨d, hd, hmatches⟩, id, hid, hstays⟩
    obtain ⟨hnull, hfilter⟩ := hkeeps id hid
    rcases miss_or_hit filter documents with hmiss | ⟨before, found, after, rfl, hb, hf⟩
    · exact hmiss d hd hmatches
    · rw [deleteFirst_of_hit hb hf] at hstays
      refine (toldApart_middle_iff.mp hapart).1 id ?_ hstays
      -- the filter matched, so the document that is found has the id that the filter asks for
      have hvalue : found.fieldOrNull idElement = id := hf _ (Table.mem_of_get? hfilter)
      rw [Document.fieldOrNull] at hvalue
      cases hfound : found.get? idElement with
      | none =>
        rw [hfound] at hvalue
        -- no id at all counts as null, which the replacement's id is not
        exact absurd hvalue.symm hnull
      | some v =>
        rw [hfound] at hvalue
        exact congrArg some hvalue

/-! ## One bulk write -/

/-- The documents in the course of a bulk write: as they are, and after each directive that is
applied. -/
def moments (documents : List Document) : List Directive → List (List Document)
  | [] => [documents]
  | directive :: rest =>
    documents :: match apply directive documents with
      | .error _ => []
      | .ok (_, documents) => moments documents rest

/-- The directives that a bulk write gets to, with the documents that they meet. -/
def meetings (documents : List Document) : List Directive → List (Directive × List Document)
  | [] => []
  | directive :: rest =>
    (directive, documents) :: match apply directive documents with
      | .error _ => []
      | .ok (_, documents) => meetings documents rest

theorem self_mem_moments (documents : List Document) (directives : List Directive) :
    documents ∈ moments documents directives := by
  cases directives with
  | nil => exact List.mem_singleton_self _
  | cons directive rest => exact List.mem_cons_self

/-- What a bulk write leaves behind is the last of its moments. -/
theorem applyAll_mem_moments (directives : List Directive) : ∀ documents : List Document,
    (applyAll documents directives).2 ∈ moments documents directives := by
  induction directives with
  | nil => exact fun documents => List.mem_singleton_self _
  | cons directive rest ih =>
    intro documents
    rw [applyAll, moments]
    cases apply directive documents with
    | error reason => exact List.mem_cons_self
    | ok result => exact List.mem_cons_of_mem _ (ih result.2)

/-- **Documents are told apart at all moments of a bulk write** just if no directive that it gets
to doubles an id. -/
theorem toldApart_moments_iff {directives : List Directive} : ∀ {documents : List Document},
    ToldApart documents →
    ((∀ now ∈ moments documents directives, ToldApart now)
      ↔ ∀ meeting ∈ meetings documents directives, ¬ Doubles meeting.1 meeting.2) := by
  induction directives with
  | nil =>
    intro documents hapart
    exact iff_of_true (fun now hnow => List.mem_singleton.mp hnow ▸ hapart) nofun
  | cons directive rest ih =>
    intro documents hapart
    rw [moments, meetings, List.forall_mem_cons, List.forall_mem_cons]
    cases happly : apply directive documents with
    | error reason =>
      -- only an insert can be refused
      cases directive with
      | insert document => exact iff_of_true ⟨hapart, nofun⟩ ⟨id, nofun⟩
      | replace filter replacement => cases happly
      | delete filter => cases happly
    | ok result =>
      obtain ⟨counts, documents'⟩ := result
      have hstep := toldApart_apply_iff hapart happly
      constructor
      · rintro ⟨_, hlater⟩
        have hnext := hlater documents' (self_mem_moments documents' rest)
        exact ⟨hstep.mp hnext, (ih hnext).mp hlater⟩
      · rintro ⟨hfirst, hlater⟩
        exact ⟨hapart, (ih (hstep.mpr hfirst)).mpr hlater⟩

/-- Directives that keep ids keep documents told apart. -/
theorem toldApart_of_keepsId {directives : List Directive} : ∀ {documents : List Document},
    ToldApart documents → (∀ directive ∈ directives, directive.KeepsId) →
    ∀ now ∈ moments documents directives, ToldApart now := by
  induction directives with
  | nil => exact fun hapart _ now hnow => List.mem_singleton.mp hnow ▸ hapart
  | cons directive rest ih =>
    intro documents hapart hkeeps
    obtain ⟨hfirst, hrest⟩ := List.forall_mem_cons.mp hkeeps
    rw [moments, List.forall_mem_cons]
    refine ⟨hapart, ?_⟩
    cases happly : apply directive documents with
    | error reason => exact nofun
    | ok result =>
      refine ih ?_ hrest
      exact (toldApart_apply_iff hapart happly).mpr (not_doubles_of_keepsId hapart hfirst)

end Collection

/-! ## Many bulk writes -/

namespace MemoryStore

/-- The store with other documents in a collection. -/
def put (store : MemoryStore) (collection : String) (documents : List Document) : MemoryStore :=
  ⟨store.collections.insert collection documents⟩

/-- The store in the course of bulk writes, whether they succeed or fail: as it is, and after each
directive that is applied. -/
def moments (store : MemoryStore) : List (String × List Directive) → List MemoryStore
  | [] => [store]
  | (collection, directives) :: rest =>
    store :: (Collection.moments (store.documents collection) directives).map (store.put collection)
      ++ (store.bulkWrite collection directives).2.moments rest

/-- The store after bulk writes, whether they succeed or fail. -/
def afterAll (store : MemoryStore) (writes : List (String × List Directive)) : MemoryStore :=
  writes.foldl (fun store write => (store.bulkWrite write.1 write.2).2) store

/-- The directives that bulk writes get to, with the documents that they meet. -/
def meetings (store : MemoryStore) :
    List (String × List Directive) → List (Directive × List Document)
  | [] => []
  | (collection, directives) :: rest =>
    Collection.meetings (store.documents collection) directives
      ++ (store.bulkWrite collection directives).2.meetings rest

/-- In no collection two documents have the same id. -/
def ToldApart (store : MemoryStore) : Prop :=
  ∀ collection, Collection.ToldApart (store.documents collection)

variable {store : MemoryStore} {collection : String}

theorem documents_put_self (store : MemoryStore) (collection : String)
    (documents : List Document) : (store.put collection documents).documents collection
      = documents := by
  rw [MemoryStore.documents, put, Table.get?_insert_self, Option.getD_some]

theorem documents_put_ne {other : String} (h : other ≠ collection) (documents : List Document) :
    (store.put collection documents).documents other = store.documents other := by
  rw [MemoryStore.documents, put, Table.get?_insert_ne _ h, MemoryStore.documents]

theorem toldApart_empty : ToldApart {} := fun _ => List.nodup_nil

theorem toldApart_put_iff (h : store.ToldApart) {documents : List Document} :
    (store.put collection documents).ToldApart ↔ Collection.ToldApart documents := by
  constructor
  · intro hput
    rw [← store.documents_put_self collection documents]
    exact hput collection
  · intro hdocuments other
    by_cases hother : other = collection
    · rw [hother, documents_put_self]
      exact hdocuments
    · rw [documents_put_ne hother]
      exact h other

/-- A bulk write puts the documents that are left in the place of those that were there. -/
theorem bulkWrite_snd (store : MemoryStore) (collection : String) (directives : List Directive) :
    (store.bulkWrite collection directives).2
      = store.put collection (Collection.applyAll (store.documents collection) directives).2 := rfl

/-- What some first bulk writes leave behind is a moment of all of them. -/
theorem afterAll_mem_moments (earlier later : List (String × List Directive)) :
    ∀ store : MemoryStore, store.afterAll earlier ∈ store.moments (earlier ++ later) := by
  induction earlier with
  | nil =>
    intro store
    cases later with
    | nil => exact List.mem_singleton_self _
    | cons write rest => exact List.mem_append_left _ List.mem_cons_self
  | cons write rest ih => exact fun store => List.mem_append_right _ (ih _)

/-- The moments of a first bulk write come before those of the later ones. -/
theorem forall_moments_cons (h : store.ToldApart) {directives : List Directive}
    {rest : List (String × List Directive)} :
    (∀ now ∈ store.moments ((collection, directives) :: rest), now.ToldApart)
      ↔ (∀ now ∈ Collection.moments (store.documents collection) directives,
          Collection.ToldApart now)
        ∧ ∀ now ∈ (store.bulkWrite collection directives).2.moments rest, now.ToldApart := by
  rw [moments, List.forall_mem_append, List.forall_mem_cons, List.forall_mem_map]
  have hput : (∀ now ∈ Collection.moments (store.documents collection) directives,
        (store.put collection now).ToldApart)
      ↔ ∀ now ∈ Collection.moments (store.documents collection) directives,
        Collection.ToldApart now := forall₂_congr fun _ _ => toldApart_put_iff h
  rw [hput, and_iff_right h]

theorem toldApart_bulkWrite (h : store.ToldApart) {directives : List Directive}
    (hmoments : ∀ now ∈ Collection.moments (store.documents collection) directives,
      Collection.ToldApart now) : (store.bulkWrite collection directives).2.ToldApart := by
  rw [bulkWrite_snd, toldApart_put_iff h]
  exact hmoments _ (Collection.applyAll_mem_moments directives _)

/-- **Stored documents are told apart at all moments of bulk writes** just if no directive that
one of them gets to doubles an id. -/
theorem toldApart_moments_iff {writes : List (String × List Directive)} :
    ∀ {store : MemoryStore}, store.ToldApart →
      ((∀ now ∈ store.moments writes, now.ToldApart)
        ↔ ∀ meeting ∈ store.meetings writes, ¬ Collection.Doubles meeting.1 meeting.2) := by
  induction writes with
  | nil =>
    intro store hstore
    exact iff_of_true (fun now hnow => List.mem_singleton.mp hnow ▸ hstore) nofun
  | cons write rest ih =>
    intro store hstore
    rw [forall_moments_cons hstore, meetings, List.forall_mem_append,
      ← Collection.toldApart_moments_iff (hstore write.1)]
    exact and_congr_right fun hfirst => ih (toldApart_bulkWrite hstore hfirst)

/-- Directives that keep ids keep the documents of a store told apart. -/
theorem toldApart_of_keepsId {writes : List (String × List Directive)} :
    ∀ {store : MemoryStore}, store.ToldApart →
      (∀ write ∈ writes, ∀ directive ∈ write.2, directive.KeepsId) →
      ∀ now ∈ store.moments writes, now.ToldApart := by
  induction writes with
  | nil => exact fun hstore _ now hnow => List.mem_singleton.mp hnow ▸ hstore
  | cons write rest ih =>
    intro store hstore hkeeps
    obtain ⟨hfirst, hrest⟩ := List.forall_mem_cons.mp hkeeps
    have hwrite := Collection.toldApart_of_keepsId (hstore write.1) hfirst
    exact (forall_moments_cons hstore).mpr ⟨hwrite, ih (toldApart_bulkWrite hstore hwrite) hrest⟩

end MemoryStore

/-! ## Stores that begin empty -/

/-- **Ids tell stored documents apart as long as no replace doubles one.** What bulk writes leave
behind, whether they succeed or fail, is among the moments of a store that was empty. At all of
these moments the documents of every collection have different ids just if no replace gives the
document that it finds the id of one that stays; and so they do if every replacement has the id
that its filter asks for. -/
theorem ids_toldApart_iff (writes : List (String × List Directive)) :
    (∀ earlier later, writes = earlier ++ later →
      MemoryStore.afterAll {} earlier ∈ MemoryStore.moments {} writes)
    ∧ ((∀ now ∈ MemoryStore.moments {} writes, now.ToldApart)
      ↔ ∀ meeting ∈ MemoryStore.meetings {} writes,
        ¬ Collection.Doubles meeting.1 meeting.2)
    ∧ ((∀ write ∈ writes, ∀ directive ∈ write.2, directive.KeepsId) →
      ∀ now ∈ MemoryStore.moments {} writes, now.ToldApart) := by
  refine ⟨?_, ?_, ?_⟩
  · rintro earlier later rfl
    exact MemoryStore.afterAll_mem_moments earlier later {}
  · exact MemoryStore.toldApart_moments_iff MemoryStore.toldApart_empty
  · exact MemoryStore.toldApart_of_keepsId MemoryStore.toldApart_empty

/-- A family with its id. -/
def familyDocument (id : Int) (name : String) : Document := [("_id", .int id), ("name", .str name)]

/-- Two families are stored, one is renamed, and it is tried to store another one with its id. -/
def familyWrites (renamed : Int) : List (String × List Directive) := [
  ("families", [.insert (familyDocument 1 "a"), .insert (familyDocument 2 "b")]),
  ("families", [.replace [("_id", .int 1)] (familyDocument renamed "c"),
    .insert (familyDocument renamed "d")])]

/-- A family that keeps its id is told apart from the others, and that of another one is refused. -/
theorem ids_toldApart_iff_families :
    (∀ write ∈ familyWrites 1, ∀ directive ∈ write.2, directive.KeepsId)
      ∧ (∀ now ∈ MemoryStore.moments {} (familyWrites 1), now.ToldApart)
      ∧ (MemoryStore.afterAll {} (familyWrites 1)).documents "families"
        = [familyDocument 1 "c", familyDocument 2 "b"] := by
  have hkeeps : ∀ write ∈ familyWrites 1, ∀ directive ∈ write.2, directive.KeepsId := by decide
  exact ⟨hkeeps, (ids_toldApart_iff (familyWrites 1)).2.2 hkeeps, by decide⟩

/-- A family that gets the id of another one is stored beside it. -/
theorem two_families_with_one_id :
    ¬ ∀ now ∈ MemoryStore.moments {} (familyWrites 2), now.ToldApart := by
  intro h
  have hafter := h _ (MemoryStore.afterAll_mem_moments (familyWrites 2) [] {})
  have hdocuments : (MemoryStore.afterAll {} (familyWrites 2)).documents "families"
      = [familyDocument 2 "c", familyDocument 2 "b"] := by decide
  have hfamilies := hafter "families"
  rw [hdocuments] at hfamilies
  exact absurd hfamilies (by decide)

end Odm
