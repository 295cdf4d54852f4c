import Odm.Proofs.Store.Ids
import Odm.Proofs.Success

/-!
# What a bulk write accounts for

A bulk write reports four counts, and they are true: how many documents its inserts brought in, how
many its replaces and deletes found, and how many of the replaced documents are not as they were.
So the size of the collection follows from the counts alone.

A directive is only *refused* if it is an insert and the `_id` of its document is already there. The
first one that is refused ends the bulk write. What the directives before it did is kept, and the
directives behind it do nothing.
-/

namespace Odm

namespace Collection

/-- The documents after a directive that is not refused. -/
def after (documents : List Document) : Directive → List Document
  | .insert document => documents ++ [document]
  | .replace filter replacement => replaceFirst filter replacement documents
  | .delete filter => deleteFirst filter documents

/-- An insert is refused if one of the documents has the id of the new one already. -/
def Refused (documents : List Document) : Directive → Prop
  | .insert document => ∃ id, document.get? idElement = some id
      ∧ ∃ other ∈ documents, other.get? idElement = some id
  | .replace _ _ | .delete _ => False

/-- Some first directives can be applied, and the one behind them is refused. -/
structure StopsAfter (documents : List Document) (directives earlier : List Directive) : Prop where
  refused : ∃ directive later, directives = earlier ++ directive :: later
    ∧ Refused (earlier.foldl after documents) directive
  applied : ∀ first directive rest, earlier = first ++ directive :: rest →
    ¬ Refused (first.foldl after documents) directive

/-! ## What is counted -/

/-- The filter matches a document. -/
def found (filter : Document) (documents : List Document) : Bool :=
  documents.any fun document => decide (document.Matches filter)

/-- The directive is an insert. -/
def inserts (meeting : Directive × List Document) : Bool := meeting.1.kind = .insert

/-- The directive is of a kind that has a filter, and finds a document. -/
def finds (kind : DirectiveKind) (meeting : Directive × List Document) : Bool :=
  meeting.1.kind = kind && meeting.1.filter?.any (found · meeting.2)

/-- The directive is a replace, and leaves other documents behind than it met. -/
def changes (meeting : Directive × List Document) : Bool :=
  meeting.1.kind = .replace && after meeting.2 meeting.1 ≠ meeting.2

/-- The counts of a bulk write are those of the directives that it met, each together with the
documents as they were then. -/
structure Accounted (before : List Document) (met : List (Directive × List Document))
    (counts : BulkCounts) (later : List Document) : Prop where
  inserted : counts.inserted = met.countP inserts
  matched : counts.matched = met.countP (finds .replace)
  modified : counts.modified = met.countP changes
  deleted : counts.deleted = met.countP (finds .delete)
  size : later.length + counts.deleted = before.length + counts.inserted
  modified_le : counts.modified ≤ counts.matched
  affected_le : counts.affected ≤ met.length

variable {documents documents' documents'' : List Document} {directive : Directive}
  {counts counts' : BulkCounts}

/-! ## One directive -/

theorem isTaken_iff {document : Document} :
    isTaken documents document = true ↔ Refused documents (.insert document) := by
  simp [isTaken, Refused, Option.any_eq_true]

/-- **A directive fails just if it is refused.** -/
theorem exists_apply_error_iff :
    (∃ reason, apply directive documents = .error reason) ↔ Refused documents directive := by
  cases directive with
  | insert document =>
    rw [← isTaken_iff, apply]
    by_cases htaken : isTaken documents document = true
    · simp [htaken]
    · simp [htaken]
  | replace filter replacement =>
    refine iff_of_false ?_ id
    rintro ⟨reason, ⟨⟩⟩
  | delete filter =>
    refine iff_of_false ?_ id
    rintro ⟨reason, ⟨⟩⟩

theorem apply_insert_eq_ok {document : Document}
    (h : apply (.insert document) documents = .ok (counts, documents')) :
    counts = { inserted := 1 } ∧ documents' = documents ++ [document] := by
  rw [apply] at h
  by_cases htaken : isTaken documents document = true
  · simp [htaken] at h
  · simp only [htaken] at h
    cases h
    exact ⟨rfl, rfl⟩

theorem documents_of_apply (h : apply directive documents = .ok (counts, documents')) :
    documents' = after documents directive := by
  cases directive with
  | insert document => exact (apply_insert_eq_ok h).2
  | replace filter replacement => cases h; rfl
  | delete filter => cases h; rfl

theorem found_of_miss {filter : Document} (h : ∀ d ∈ documents, ¬ d.Matches filter) :
    found filter documents = false := by
  rw [found, List.any_eq_false]
  intro d hd
  simpa using h d hd

theorem found_of_hit {filter d : Document} {before rest : List Document}
    (hd : d.Matches filter) : found filter (before ++ d :: rest) = true := by
  simp [found, hd]

theorem accounted_replace (filter replacement : Document) (documents : List Document) :
    Accounted documents [(.replace filter replacement, documents)]
      (replaceCounts filter replacement documents)
      (replaceFirst filter replacement documents) := by
  rcases miss_or_hit filter documents with hmiss | ⟨before, d, rest, rfl, hbefore, hd⟩
  · have hfound := found_of_miss hmiss
    have hcounts : replaceCounts filter replacement documents = {} := by
      have hnone : documents.find? (fun d => decide (d.Matches filter)) = none := by
        rw [List.find?_eq_none]
        intro d hd
        simpa using hmiss d hd
      rw [replaceCounts, hnone]
    have hsame : replaceFirst filter replacement documents = documents := replaceFirst_of_miss hmiss
    rw [hcounts, hsame]
    constructor <;> simp [inserts, finds, changes, after, Directive.kind, Directive.filter?,
      BulkCounts.affected, hfound, hsame]
  · have hfound : found filter (before ++ d :: rest) = true := found_of_hit hd
    have hcounts : replaceCounts filter replacement (before ++ d :: rest)
        = if d = replacement then { matched := 1 } else { matched := 1, modified := 1 } := by
      have hfirst : (before ++ d :: rest).find? (fun d => decide (d.Matches filter)) = some d := by
        rw [List.find?_append, List.find?_eq_none.mpr fun d hd => by simpa using hbefore d hd]
        simp [hd]
      rw [replaceCounts, hfirst]
    have hnew : replaceFirst filter replacement (before ++ d :: rest)
        = before ++ replacement :: rest := replaceFirst_of_hit hbefore hd
    rw [hcounts, hnew]
    -- the documents are the same just if the replacement is the document that was found
    by_cases heq : d = replacement
    · subst heq
      constructor <;> simp [inserts, finds, changes, after, Directive.kind, Directive.filter?,
        BulkCounts.affected, hfound, hnew]
    · constructor <;> simp [inserts, finds, changes, after, Directive.kind, Directive.filter?,
        BulkCounts.affected, hfound, hnew, heq, Ne.symm heq]

theorem accounted_delete (filter : Document) (documents : List Document) :
    Accounted documents [(.delete filter, documents)] (deleteCounts filter documents)
      (deleteFirst filter documents) := by
  have hcounts : deleteCounts filter documents
      = if found filter documents then { deleted := 1 } else {} := rfl
  rcases miss_or_hit filter documents with hmiss | ⟨before, d, rest, rfl, hbefore, hd⟩
  · rw [hcounts, found_of_miss hmiss, deleteFirst_of_miss hmiss]
    constructor <;> simp [inserts, finds, changes, Directive.kind, Directive.filter?,
      BulkCounts.affected, found_of_miss hmiss]
  · have hfound : found filter (before ++ d :: rest) = true := found_of_hit hd
    rw [hcounts, hfound, deleteFirst_of_hit hbefore hd]
    constructor <;> simp [inserts, finds, changes, Directive.kind, Directive.filter?,
      BulkCounts.affected, hfound, Nat.add_assoc]

/-- **One directive is accounted for.** -/
theorem accounted_apply (h : apply directive documents = .ok (counts, documents')) :
    Accounted documents [(directive, documents)] counts documents' := by
  cases directive with
  | insert document =>
    obtain ⟨rfl, rfl⟩ := apply_insert_eq_ok h
    constructor <;> simp [inserts, finds, changes, Directive.kind, BulkCounts.affected]
  | replace filter replacement =>
    cases h
    exact accounted_replace filter replacement documents
  | delete filter =>
    cases h
    exact accounted_delete filter documents

/-! ## One bulk write -/

/-- Counts add up over the directives of a bulk write. -/
theorem Accounted.append {met met' : List (Directive × List Document)}
    (h : Accounted documents met counts documents')
    (h' : Accounted documents' met' counts' documents'') :
    Accounted documents (met ++ met') (counts.add counts') documents'' := by
  have hsize := h.size
  have hsize' := h'.size
  have hle := h.modified_le
  have hle' := h'.modified_le
  have haffected := h.affected_le
  have haffected' := h'.affected_le
  refine ⟨?_, ?_, ?_, ?_, ?_, ?_, ?_⟩
  · rw [List.countP_append, ← h.inserted, ← h'.inserted]
    rfl
  · rw [List.countP_append, ← h.matched, ← h'.matched]
    rfl
  · rw [List.countP_append, ← h.modified, ← h'.modified]
    rfl
  · rw [List.countP_append, ← h.deleted, ← h'.deleted]
    rfl
  · -- at most as many are modified as are matched, of the sum as of both parts
    simp only [BulkCounts.add]
    omega
  · simp only [BulkCounts.add]
    omega
  · rw [BulkCounts.affected_add, List.length_append]
    omega

/-- **A bulk write that succeeds has met all its directives**, and accounts for them. -/
theorem accounted_applyAll {directives : List Directive} :
    ∀ {documents documents' : List Document} {counts : BulkCounts},
      applyAll documents directives = (.ok counts, documents') →
      (meetings documents directives).map Prod.fst = directives
        ∧ documents' = directives.foldl after documents
        ∧ Accounted documents (meetings documents directives) counts documents' := by
  induction directives with
  | nil =>
    intro documents documents' counts h
    cases h
    refine ⟨rfl, rfl, ?_⟩
    constructor <;> simp [meetings, BulkCounts.affected]
  | cons directive rest ih =>
    intro documents documents' counts h
    rw [applyAll] at h
    cases happly : apply directive documents with
    | error reason =>
      rw [happly] at h
      cases h
    | ok result =>
      obtain ⟨counts₁, documents₁⟩ := result
      rw [happly] at h
      cases hrest : applyAll documents₁ rest with
      | mk later documents₂ =>
        simp only [hrest, Prod.mk.injEq] at h
        obtain ⟨hlater, rfl⟩ := h
        obtain ⟨counts₂, rfl, rfl⟩ := Except.map_eq_ok_iff.mp hlater
        obtain ⟨hmet, hdocuments, haccounted⟩ := ih hrest
        -- the rest meets what the first directive left
        have hfirst := documents_of_apply happly
        have hmeetings : meetings documents (directive :: rest)
            = [(directive, documents)] ++ meetings documents₁ rest := by
          simp [meetings, happly]
        rw [hmeetings]
        refine ⟨?_, ?_, (accounted_apply happly).append haccounted⟩
        · simp [hmet]
        · rw [List.foldl_cons, ← hfirst, hdocuments]

/-! ## The first refused directive -/

theorem stopsAfter_nil {later : List Directive} (h : Refused documents directive) :
    StopsAfter documents (directive :: later) [] where
  refused := ⟨directive, later, rfl, h⟩
  applied := by
    intro first directive rest hnil
    simp at hnil

/-- What is refused further on is the first refused one if the directive in front is not. -/
theorem StopsAfter.cons {rest earlier : List Directive}
    (h : StopsAfter (after documents directive) rest earlier)
    (happlied : ¬ Refused documents directive) :
    StopsAfter documents (directive :: rest) (directive :: earlier) where
  refused := by
    obtain ⟨last, later, rfl, hrefused⟩ := h.refused
    exact ⟨last, later, rfl, hrefused⟩
  applied := by
    intro first next others hsplit
    cases first with
    | nil =>
      obtain ⟨rfl, _⟩ := List.cons.inj hsplit
      exact happlied
    | cons head first =>
      obtain ⟨rfl, hrest⟩ := List.cons.inj hsplit
      exact h.applied first next others hrest

/-- The other way round: a bulk write stops at once or further on. -/
theorem StopsAfter.cases_cons {rest earlier : List Directive}
    (h : StopsAfter documents (directive :: rest) earlier) :
    Refused documents directive
      ∨ ¬ Refused documents directive
        ∧ ∃ others, StopsAfter (after documents directive) rest others := by
  obtain ⟨last, later, hsplit, hrefused⟩ := h.refused
  cases earlier with
  | nil =>
    obtain ⟨rfl, rfl⟩ := List.cons.inj hsplit
    exact .inl hrefused
  | cons head others =>
    obtain ⟨rfl, rfl⟩ := List.cons.inj hsplit
    have hfirst := h.applied [] directive others rfl
    refine .inr ⟨hfirst, others, ⟨last, later, rfl, hrefused⟩, ?_⟩
    intro first next more heq
    exact h.applied (directive :: first) next more (by rw [heq]; rfl)

/-- **A bulk write that fails has stopped at the first refused directive.** -/
theorem stopsAfter_of_error {directives : List Directive} :
    ∀ {documents documents' : List Document} {reason : String},
      applyAll documents directives = (.error reason, documents') →
      ∃ earlier, StopsAfter documents directives earlier
        ∧ documents' = earlier.foldl after documents := by
  induction directives with
  | nil =>
    intro documents documents' reason h
    cases h
  | cons directive rest ih =>
    intro documents documents' reason h
    rw [applyAll] at h
    cases happly : apply directive documents with
    | error why =>
      rw [happly] at h
      cases h
      exact ⟨[], stopsAfter_nil (exists_apply_error_iff.mp ⟨reason, happly⟩), rfl⟩
    | ok result =>
      obtain ⟨counts₁, documents₁⟩ := result
      rw [happly] at h
      cases hrest : applyAll documents₁ rest with
      | mk later documents₂ =>
        simp only [hrest, Prod.mk.injEq] at h
        obtain ⟨hlater, rfl⟩ := h
        cases later with
        | ok counts₂ => cases hlater
        | error why =>
          obtain ⟨earlier, hstops, rfl⟩ := ih hrest
          have hfirst := documents_of_apply happly
          -- the first directive was applied, so it is not the one that is refused
          have happlied : ¬ Refused documents directive := by
            intro hrefused
            obtain ⟨why, hwhy⟩ := exists_apply_error_iff.mpr hrefused
            rw [happly] at hwhy
            cases hwhy
          subst hfirst
          exact ⟨directive :: earlier, hstops.cons happlied, rfl⟩

/-- **Where a directive is refused, the bulk write fails.** -/
theorem exists_error_of_stopsAfter {directives : List Directive} :
    ∀ {documents : List Document} {earlier : List Directive},
      StopsAfter documents directives earlier →
      ∃ reason, (applyAll documents directives).1 = .error reason := by
  induction directives with
  | nil =>
    intro documents earlier h
    obtain ⟨last, later, hsplit, _⟩ := h.refused
    simp at hsplit
  | cons directive rest ih =>
    intro documents earlier h
    rw [applyAll]
    rcases h.cases_cons with hrefused | ⟨happlied, others, hothers⟩
    · obtain ⟨reason, hreason⟩ := exists_apply_error_iff.mpr hrefused
      exact ⟨reason, by rw [hreason]⟩
    · cases happly : apply directive documents with
      -- a directive that is not refused cannot fail
      | error why => exact absurd (exists_apply_error_iff.mp ⟨why, happly⟩) happlied
      | ok result =>
        obtain ⟨counts₁, documents₁⟩ := result
        have hfirst := documents_of_apply happly
        subst hfirst
        obtain ⟨reason, hreason⟩ := ih hothers
        exact ⟨reason, by simp [hreason, Except.map]⟩

end Collection

/-! ## The memory store -/

namespace MemoryStore

open Collection (StopsAfter Accounted)

variable {store store' : MemoryStore} {collection : String} {directives : List Directive}

/-- The documents of the collection are those that the directives leave. -/
theorem applyAll_of_bulkWrite {result : Except StoreError BulkCounts}
    (h : store.bulkWrite collection directives = (result, store')) :
    ∃ applied, Collection.applyAll (store.documents collection) directives
        = (applied, store'.documents collection)
      ∧ result = applied.mapError (.bulkWrite collection) := by
  have hself := store.documents_bulkWrite_self collection directives
  have hresult := congrArg Prod.fst h
  rw [h] at hself
  refine ⟨(Collection.applyAll (store.documents collection) directives).1, ?_, hresult.symm⟩
  rw [hself]

end MemoryStore

/-- **A bulk write accounts for what it does**, and leaves all other collections alone. If it gets
through, it has done what all its directives ask for, and its counts are those of the directives:
how many were inserts, how many replaces and deletes found a document, and how many replaces changed
one. If it fails, it has done what the directives in front of the first refused one ask for. And it
fails just if some directive is refused, which only inserts of an id that is there already are. -/
theorem bulkWrite_accounted (store : MemoryStore) (collection : String)
    (directives : List Directive) :
    (∀ other, other ≠ collection →
      (store.bulkWrite collection directives).2.documents other = store.documents other)
    ∧ (∀ counts store', store.bulkWrite collection directives = (.ok counts, store') →
      (Collection.meetings (store.documents collection) directives).map Prod.fst = directives
        ∧ store'.documents collection
          = directives.foldl Collection.after (store.documents collection)
        ∧ Collection.Accounted (store.documents collection)
          (Collection.meetings (store.documents collection) directives) counts
          (store'.documents collection))
    ∧ (∀ err store', store.bulkWrite collection directives = (.error err, store') →
      ∃ earlier, Collection.StopsAfter (store.documents collection) directives earlier
        ∧ store'.documents collection
          = earlier.foldl Collection.after (store.documents collection))
    ∧ ((∃ err, (store.bulkWrite collection directives).1 = .error err)
      ↔ ∃ earlier, Collection.StopsAfter (store.documents collection) directives earlier) := by
  -- the store hands on the reason of the collection, under the collection's name
  have hfailed : ∀ err store', store.bulkWrite collection directives = (.error err, store') →
      ∃ earlier, Collection.StopsAfter (store.documents collection) directives earlier
        ∧ store'.documents collection
          = earlier.foldl Collection.after (store.documents collection) := by
    intro err store' h
    obtain ⟨applied, happlied, herr⟩ := MemoryStore.applyAll_of_bulkWrite h
    cases applied with
    | ok counts => cases herr
    | error reason => exact Collection.stopsAfter_of_error happlied
  refine ⟨fun other hother => store.documents_bulkWrite_ne directives hother, ?_, hfailed, ?_⟩
  · intro counts store' h
    obtain ⟨applied, happlied, hcounts⟩ := MemoryStore.applyAll_of_bulkWrite h
    cases applied with
    | error reason => cases hcounts
    | ok counts' =>
      cases hcounts
      exact Collection.accounted_applyAll happlied
  · constructor
    · rintro ⟨err, herr⟩
      obtain ⟨earlier, hstops, _⟩ :=
        hfailed err (store.bulkWrite collection directives).2 (by rw [← herr])
      exact ⟨earlier, hstops⟩
    · rintro ⟨earlier, hstops⟩
      obtain ⟨reason, hreason⟩ := Collection.exists_error_of_stopsAfter hstops
      exact ⟨.bulkWrite collection reason,
        congrArg (Except.mapError (StoreError.bulkWrite collection)) hreason⟩

/-- Two families are stored; one is renamed, one is replaced by itself, and one that is not there is
to be deleted. -/
def familyBatch : List Directive := [
  .insert (familyDocument 1 "a"), .insert (familyDocument 2 "b"),
  .replace [("_id", .int 1)] (familyDocument 1 "c"),
  .replace [("_id", .int 2)] (familyDocument 2 "b"), .delete [("_id", .int 3)]]

/-- Of the families two came in, two were found, and one is not as it was. A third one with the id
of another is refused, and nothing behind it is done. -/
theorem bulkWrite_accounted_families :
    (∃ counts store', MemoryStore.bulkWrite {} "families" familyBatch = (.ok counts, store')
      ∧ counts.affected = 3
      ∧ (store'.documents "families").length + counts.deleted = 0 + counts.inserted)
    ∧ ∃ earlier, Collection.StopsAfter [] (familyBatch ++ [.insert (familyDocument 2 "d"),
        .delete [("_id", .int 1)]]) earlier := by
  have hok : ∃ counts store', MemoryStore.bulkWrite {} "families" familyBatch
      = (.ok counts, store') ∧ counts.affected = 3 := ⟨_, _, rfl, rfl⟩
  obtain ⟨counts, store', hwrite, haffected⟩ := hok
  obtain ⟨_, haccounts, _⟩ := bulkWrite_accounted {} "families" familyBatch
  obtain ⟨_, _, hmet⟩ := haccounts counts store' hwrite
  refine ⟨⟨counts, store', hwrite, haffected, hmet.size⟩, ?_⟩
  obtain ⟨_, _, _, hstops⟩ := bulkWrite_accounted {} "families"
    (familyBatch ++ [.insert (familyDocument 2 "d"), .delete [("_id", .int 1)]])
  exact hstops.mp ⟨_, rfl⟩

end Odm
