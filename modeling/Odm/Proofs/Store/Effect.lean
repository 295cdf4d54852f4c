import Odm.Store.Memory

/-!
# What directives do

`Effect` says what one directive does to the documents of a collection, and `Effects` what a
sequence of them does. A replace or a delete either *misses*, when its filter matches nothing,
or *hits* the first document that the filter matches; it never concerns two documents. A bulk
write has the effects of some first part of its directives, and of all of them if it succeeds.

Everything else about stored documents follows from these cases: a document stays as long as no
filter matches it, and a document can only come into a collection by being inserted or by taking
the place of another one.
-/

namespace Odm

/-- The document that a directive stores. -/
def Directive.document? : Directive → Option Document
  | .insert document | .replace _ document => some document
  | .delete _ => none

namespace Collection

/-- What a directive does to the documents of a collection. -/
inductive Effect : Directive → List Document → List Document → Prop where
  | inserted {documents : List Document} {document : Document} :
    Effect (.insert document) documents (documents ++ [document])
  | replaceMissed {documents : List Document} {filter replacement : Document} :
    (∀ d ∈ documents, ¬ d.Matches filter) →
    Effect (.replace filter replacement) documents documents
  | replaced {before after : List Document} {filter replacement found : Document} :
    (∀ d ∈ before, ¬ d.Matches filter) → found.Matches filter →
    Effect (.replace filter replacement) (before ++ found :: after)
      (before ++ replacement :: after)
  | deleteMissed {documents : List Document} {filter : Document} :
    (∀ d ∈ documents, ¬ d.Matches filter) → Effect (.delete filter) documents documents
  | deleted {before after : List Document} {filter found : Document} :
    (∀ d ∈ before, ¬ d.Matches filter) → found.Matches filter →
    Effect (.delete filter) (before ++ found :: after) (before ++ after)

/-- What several directives do, one after the other. -/
inductive Effects : List Directive → List Document → List Document → Prop where
  | nil {documents : List Document} : Effects [] documents documents
  | cons {directive : Directive} {rest : List Directive}
      {documents documents' documents'' : List Document} :
    Effect directive documents documents' → Effects rest documents' documents'' →
    Effects (directive :: rest) documents documents''

/-! ## From the store's functions -/

/-- Either no document matches a filter, or there is a first one that does. -/
theorem miss_or_hit (filter : Document) (documents : List Document) :
    (∀ d ∈ documents, ¬ d.Matches filter)
      ∨ ∃ before found after, documents = before ++ found :: after
        ∧ (∀ d ∈ before, ¬ d.Matches filter) ∧ found.Matches filter := by
  induction documents with
  | nil => exact .inl nofun
  | cons d rest ih =>
    by_cases hd : d.Matches filter
    · exact .inr ⟨[], d, rest, rfl, nofun, hd⟩
    · rcases ih with hmiss | ⟨before, found, after, rfl, hbefore, hfound⟩
      · exact .inl (List.forall_mem_cons.mpr ⟨hd, hmiss⟩)
      · exact .inr ⟨d :: before, found, after, rfl, List.forall_mem_cons.mpr ⟨hd, hbefore⟩,
          hfound⟩

theorem replaceFirst_of_miss {filter replacement : Document} {documents : List Document}
    (h : ∀ d ∈ documents, ¬ d.Matches filter) :
    replaceFirst filter replacement documents = documents := by
  induction documents with
  | nil => rfl
  | cons d rest ih =>
    obtain ⟨hd, hrest⟩ := List.forall_mem_cons.mp h
    rw [replaceFirst, if_neg hd, ih hrest]

theorem replaceFirst_of_hit {filter replacement found : Document} {before after : List Document}
    (h : ∀ d ∈ before, ¬ d.Matches filter) (hfound : found.Matches filter) :
    replaceFirst filter replacement (before ++ found :: after)
      = before ++ replacement :: after := by
  induction before with
  | nil => rw [List.nil_append, replaceFirst, if_pos hfound, List.nil_append]
  | cons d rest ih =>
    obtain ⟨hd, hrest⟩ := List.forall_mem_cons.mp h
    rw [List.cons_append, replaceFirst, if_neg hd, ih hrest, List.cons_append]

theorem deleteFirst_of_miss {filter : Document} {documents : List Document}
    (h : ∀ d ∈ documents, ¬ d.Matches filter) : deleteFirst filter documents = documents := by
  induction documents with
  | nil => rfl
  | cons d rest ih =>
    obtain ⟨hd, hrest⟩ := List.forall_mem_cons.mp h
    rw [deleteFirst, if_neg hd, ih hrest]

theorem deleteFirst_of_hit {filter found : Document} {before after : List Document}
    (h : ∀ d ∈ before, ¬ d.Matches filter) (hfound : found.Matches filter) :
    deleteFirst filter (before ++ found :: after) = before ++ after := by
  induction before with
  | nil => rw [List.nil_append, deleteFirst, if_pos hfound, List.nil_append]
  | cons d rest ih =>
    obtain ⟨hd, hrest⟩ := List.forall_mem_cons.mp h
    rw [List.cons_append, deleteFirst, if_neg hd, ih hrest, List.cons_append]

/-- **A directive that is applied has its effect.** -/
theorem apply_effect {directive : Directive} {documents documents' : List Document}
    {counts : BulkCounts} (h : apply directive documents = .ok (counts, documents')) :
    Effect directive documents documents' := by
  cases directive with
  | insert document =>
    -- an insert is refused only if its id is taken
    simp only [apply] at h
    split at h
    · cases h
    · cases h
      exact .inserted
  | replace filter replacement =>
    cases h
    -- the first match splits the documents, so that what comes before it does not match
    rcases miss_or_hit filter documents with hmiss | ⟨before, found, after, rfl, hb, hf⟩
    · rw [replaceFirst_of_miss hmiss]
      exact .replaceMissed hmiss
    · rw [replaceFirst_of_hit hb hf]
      exact .replaced hb hf
  | delete filter =>
    cases h
    rcases miss_or_hit filter documents with hmiss | ⟨before, found, after, rfl, hb, hf⟩
    · rw [deleteFirst_of_miss hmiss]
      exact .deleteMissed hmiss
    · rw [deleteFirst_of_hit hb hf]
      exact .deleted hb hf

/-- **A bulk write that succeeds has the effects of all its directives.** -/
theorem applyAll_effects {directives : List Directive} {documents documents' : List Document}
    {counts : BulkCounts} (h : applyAll documents directives = (.ok counts, documents')) :
    Effects directives documents documents' := by
  induction directives generalizing documents counts with
  | nil =>
    cases h
    exact .nil
  | cons directive rest ih =>
    rw [applyAll] at h
    split at h
    · cases h
    · rename_i counts₁ documents₁ happly
      cases hrest : applyAll documents₁ rest with
      | mk later documents₂ =>
        simp only [hrest, Prod.mk.injEq] at h
        obtain ⟨hlater, rfl⟩ := h
        cases later with
        | error reason => cases hlater -- a failure further on would be that of the whole write
        | ok counts₂ => exact .cons (apply_effect happly) (ih hrest)

/-! ## Sequences of effects -/

theorem Effects.append_inv {xs ys : List Directive} {documents documents'' : List Document}
    (h : Effects (xs ++ ys) documents documents'') :
    ∃ documents', Effects xs documents documents' ∧ Effects ys documents' documents'' := by
  induction xs generalizing documents with
  | nil => exact ⟨documents, .nil, h⟩
  | cons x rest ih =>
    cases h with
    | cons hx hrest =>
      obtain ⟨documents', hxs, hys⟩ := ih hrest
      exact ⟨documents', .cons hx hxs, hys⟩

/-! ## Documents that stay, and documents that come in -/

/-- A document stays as long as the filter does not match it. -/
theorem Effect.mem_of_not_matches {directive : Directive} {documents documents' : List Document}
    (h : Effect directive documents documents') {d : Document} (hd : d ∈ documents)
    (hfilter : ∀ filter, directive.filter? = some filter → ¬ d.Matches filter) :
    d ∈ documents' := by
  cases h with
  | inserted => exact List.mem_append_left _ hd
  | replaceMissed _ => exact hd
  | replaced _ hfound =>
    rcases List.mem_append.mp hd with hb | ha
    · exact List.mem_append_left _ hb
    · rcases List.mem_cons.mp ha with rfl | ha
      · -- only the document that was found goes, and the filter matched that one
        exact absurd hfound (hfilter _ rfl)
      · exact List.mem_append_right _ (List.mem_cons_of_mem _ ha)
  | deleteMissed _ => exact hd
  | deleted _ hfound =>
    rcases List.mem_append.mp hd with hb | ha
    · exact List.mem_append_left _ hb
    · rcases List.mem_cons.mp ha with rfl | ha
      · -- the deleted document is one that the filter matches
        exact absurd hfound (hfilter _ rfl)
      · exact List.mem_append_right _ ha

theorem Effects.mem_of_not_matches {directives : List Directive}
    {documents documents' : List Document} (h : Effects directives documents documents')
    {d : Document} (hd : d ∈ documents)
    (hfilter : ∀ directive ∈ directives, ∀ filter, directive.filter? = some filter →
      ¬ d.Matches filter) : d ∈ documents' := by
  induction h with
  | nil => exact hd
  | cons heffect _ ih =>
    obtain ⟨hfirst, hrest⟩ := List.forall_mem_cons.mp hfilter
    exact ih (heffect.mem_of_not_matches hd hfirst) hrest

/-- A document was there before, or the directive has stored it. -/
theorem Effect.mem_inv {directive : Directive} {documents documents' : List Document}
    (h : Effect directive documents documents') {d : Document} (hd : d ∈ documents') :
    d ∈ documents ∨ directive.document? = some d := by
  cases h with
  | inserted =>
    rcases List.mem_append.mp hd with hd | hd
    · exact .inl hd
    · exact .inr (by rw [List.mem_singleton.mp hd]; rfl)
  | replaceMissed _ => exact .inl hd
  | replaced _ _ =>
    rcases List.mem_append.mp hd with hb | ha
    · exact .inl (List.mem_append_left _ hb)
    · -- in the place of the found document is the replacement
      rcases List.mem_cons.mp ha with rfl | ha
      · exact .inr rfl
      · exact .inl (List.mem_append_right _ (List.mem_cons_of_mem _ ha))
  | deleteMissed _ => exact .inl hd
  | deleted _ _ =>
    rcases List.mem_append.mp hd with hb | ha
    · exact .inl (List.mem_append_left _ hb)
    · exact .inl (List.mem_append_right _ (List.mem_cons_of_mem _ ha))

theorem Effects.mem_inv {directives : List Directive} {documents documents' : List Document}
    (h : Effects directives documents documents') {d : Document} (hd : d ∈ documents') :
    d ∈ documents ∨ ∃ directive ∈ directives, directive.document? = some d := by
  induction h with
  | nil => exact .inl hd
  | cons heffect _ ih =>
    rcases ih hd with hd | ⟨directive, hmem, hstored⟩
    · rcases heffect.mem_inv hd with hd | hstored
      · exact .inl hd
      · exact .inr ⟨_, List.mem_cons_self, hstored⟩
    · exact .inr ⟨directive, List.mem_cons_of_mem _ hmem, hstored⟩

/-! ## Documents of one kind -/

/-- One document of a kind has been removed, or one that is not of the kind has its place. -/
inductive Took (P : Document → Prop) : List Document → List Document → Prop where
  | removed {before after : List Document} {found : Document} :
    P found → Took P (before ++ found :: after) (before ++ after)
  | replaced {before after : List Document} {found replacement : Document} :
    P found → ¬ P replacement →
    Took P (before ++ found :: after) (before ++ replacement :: after)

section Kind

variable {P : Document → Prop} [DecidablePred P] {directive : Directive}
  {documents documents' : List Document}

theorem Took.countP_lt (h : Took P documents documents') :
    documents'.countP (P ·) < documents.countP (P ·) := by
  cases h with
  | removed hfound =>
    rw [List.countP_append, List.countP_append, List.countP_cons_of_pos (by simpa using hfound)]
    omega
  | replaced hfound hreplacement =>
    rw [List.countP_append, List.countP_append,
      List.countP_cons_of_neg (by simpa using hreplacement),
      List.countP_cons_of_pos (by simpa using hfound)]
    omega

/-- **Documents of a kind that is not stored do not become more.** -/
theorem Effect.countP_le (h : Effect directive documents documents')
    (hstored : ∀ document, directive.document? = some document → ¬ P document) :
    documents'.countP (P ·) ≤ documents.countP (P ·) := by
  cases h with
  | inserted =>
    rw [List.countP_append, List.countP_singleton, if_neg (by simpa using hstored _ rfl)]
    omega
  | replaceMissed _ => exact Nat.le_refl _
  | replaced _ _ =>
    rw [List.countP_append, List.countP_append,
      -- the replacement is not of the kind, and the document found may have been
      List.countP_cons_of_neg (by simpa using hstored _ rfl), List.countP_cons]
    omega
  | deleteMissed _ => exact Nat.le_refl _
  | deleted _ _ =>
    rw [List.countP_append, List.countP_append, List.countP_cons]
    omega

omit [DecidablePred P] in
/-- **A filter for documents of one kind either misses or takes one of them.** -/
theorem Effect.eq_or_took {filter : Document} (h : Effect directive documents documents')
    (hdirective : directive.filter? = some filter) (hfilter : ∀ d, d.Matches filter → P d)
    (hstored : ∀ document, directive.document? = some document → ¬ P document) :
    documents' = documents ∨ Took P documents documents' := by
  cases h with
  | inserted => cases hdirective
  | replaceMissed _ => exact .inl rfl
  | replaced _ hfound =>
    cases hdirective
    exact .inr (.replaced (hfilter _ hfound) (hstored _ rfl))
  | deleteMissed _ => exact .inl rfl
  | deleted _ hfound =>
    cases hdirective
    exact .inr (.removed (hfilter _ hfound))

end Kind

end Collection

/-! ## The memory store -/

namespace MemoryStore

theorem documents_bulkWrite_self (store : MemoryStore) (collection : String)
    (directives : List Directive) :
    (store.bulkWrite collection directives).2.documents collection
      = (Collection.applyAll (store.documents collection) directives).2 := by
  rw [bulkWrite, documents, Table.get?_insert_self, Option.getD_some]

/-- A bulk write leaves all other collections alone. -/
theorem documents_bulkWrite_ne (store : MemoryStore) {collection other : String}
    (directives : List Directive) (h : other ≠ collection) :
    (store.bulkWrite collection directives).2.documents other = store.documents other := by
  rw [bulkWrite, documents, Table.get?_insert_ne _ h, documents]

theorem bulkWrite_effects {store store' : MemoryStore} {collection : String}
    {directives : List Directive} {counts : BulkCounts}
    (h : store.bulkWrite collection directives = (.ok counts, store')) :
    Collection.Effects directives (store.documents collection) (store'.documents collection) := by
  have hself := store.documents_bulkWrite_self collection directives
  rw [h] at hself
  have hresult := congrArg Prod.fst h
  rw [bulkWrite] at hresult
  cases happly : Collection.applyAll (store.documents collection) directives with
  | mk result documents =>
    rw [happly] at hself hresult
    rw [hself]
    cases result with
    | error reason => cases hresult
    | ok counts' => exact Collection.applyAll_effects happly

end MemoryStore

end Odm
