import Odm.Proofs.Save.Course

/-!
# What a successful save leaves behind

A save that succeeds has sent a directive for every root, and each directive had its effect on
the collection as it was when its turn came. Whether the collection shows the root afterwards is
another matter. A replace whose filter matches nothing changes nothing, a delete takes the first
document that its filter matches and no other, and a later root of the same save may concern the
same document. None of this is an error, and the changes are accepted all the same.

So there are two conditions. The root has to be *found* when its turn comes, which is always so
for an added one, and what is done has to *last* through the turns that come later. Then the
collection *reflects* the root.
-/

namespace Odm

/-- The baseline key of an entry, as a filter. -/
def Entry.keyFilter (s : Schema) (e : Entry) : Except UpdateError Document :=
  (s.keyProperties e.entityType.name).foldlM (WritePlan.addKey ⟨e.entityType, .replace⟩ e) []

namespace Turn

/-- The stored documents are as they should be once the entry of this turn has been saved: no
document has the key of a deleted entry, and there is the document of any other one. -/
def Reflected (s : Schema) (turn : Turn) (e : Entry) (documents : List Document) : Prop :=
  if e.state = .deleted then ∃ key, e.keyFilter s = .ok key ∧ ∀ d ∈ documents, ¬ d.Matches key
  else ∃ document, turn.after.changes.compose s turn.id = .ok document ∧ document ∈ documents

/-- What a directive is meant for is there: any match for a replace; for a delete, the match is
all that has the key. -/
def Found (s : Schema) (turn : Turn) (e : Entry) (documents : List Document) : Prop :=
  match turn.directive with
  | .insert _ => True
  | .replace filter _ => ∃ d ∈ documents, d.Matches filter
  | .delete filter => ∃ key, e.keyFilter s = .ok key
    ∧ documents.filter (fun d => d.Matches key)
      = (documents.find? fun d => d.Matches filter).toList

/-- Later directives leave the stored document alone, or store none with a deleted key. -/
def Lasts (s : Schema) (turn : Turn) (e : Entry) (later : List Directive) : Prop :=
  match turn.directive with
  | .insert document | .replace _ document =>
    ∀ directive ∈ later, ∀ filter, directive.filter? = some filter → ¬ document.Matches filter
  | .delete _ => ∃ key, e.keyFilter s = .ok key
    ∧ ∀ directive ∈ later, ∀ d, directive.document? = some d → ¬ d.Matches key

end Turn

open Collection

/-- If the match of a filter is all that has a key, then nothing has it after the delete. -/
theorem Collection.Effect.not_matches_of_deleted {filter key : Document}
    {documents documents' : List Document} (h : Effect (.delete filter) documents documents')
    (hkey : documents.filter (fun d => d.Matches key)
      = (documents.find? fun d => d.Matches filter).toList) :
    ∀ d ∈ documents', ¬ d.Matches key := by
  cases h with
  | deleteMissed hmiss =>
    have hnone : documents.find? (fun d => decide (d.Matches filter)) = none := by
      rw [List.find?_eq_none]
      intro d hd
      simpa using hmiss d hd
    rw [hnone, Option.toList_none, List.filter_eq_nil_iff] at hkey
    intro d hd
    simpa using hkey d hd
  | @deleted before after _ found hbefore hfound =>
    have hfind : (before ++ found :: after).find? (fun d => decide (d.Matches filter))
        = some found := by
      rw [List.find?_append, List.find?_eq_none.mpr, List.find?_cons_of_pos]
      · rfl
      · simpa using hfound
      · intro d hd
        simpa using hbefore d hd
    rw [hfind, Option.toList_some] at hkey
    have hfoundKey : found.Matches key := by
      have hmem : found ∈ (before ++ found :: after).filter fun d => decide (d.Matches key) := by
        rw [hkey]
        exact List.mem_singleton_self _
      simpa using (List.mem_filter.mp hmem).2
    -- The one document with the key is the one that goes, so around it there is none.
    rw [List.filter_append, List.filter_cons_of_pos (by simpa using hfoundKey)] at hkey
    have hlength := congrArg List.length hkey
    rw [List.length_append, List.length_cons, List.length_singleton] at hlength
    have hb : before.filter (fun d => decide (d.Matches key)) = [] :=
      List.eq_nil_of_length_eq_zero (by omega)
    have ha : after.filter (fun d => decide (d.Matches key)) = [] :=
      List.eq_nil_of_length_eq_zero (by omega)
    intro d hd
    rcases List.mem_append.mp hd with hd | hd
    · simpa using List.filter_eq_nil_iff.mp hb d hd
    · simpa using List.filter_eq_nil_iff.mp ha d hd

/-- **A root that is found, and whose turn is not undone, is reflected.** -/
theorem Turn.reflected_of_found {s : Schema} {turn : Turn} {e : Entry}
    {later : List Directive} {documents documents' documents'' : List Document}
    (hwritten : Written s turn.before turn.id e turn.directive turn.after)
    (heffect : Effect turn.directive documents documents')
    (hlater : Effects later documents' documents'') (hfound : turn.Found s e documents)
    (hlasts : turn.Lasts s e later) : turn.Reflected s e documents'' := by
  obtain ⟨id, before, directive, after⟩ := turn
  cases hwritten with
  | @inserted e' source document _ hstate hfill hchanges hdocument =>
    rw [Reflected, if_neg (by rw [hstate]; decide)]
    refine ⟨document, hdocument, hlater.mem_of_not_matches ?_ hlasts⟩
    cases heffect with
    | inserted => exact List.mem_append_right _ (List.mem_singleton_self _)
  | @replaced e' source filter document _ hstate hfill hchanges hfilter hdocument =>
    rw [Reflected, if_neg (by rcases hstate with h | h <;> rw [h] <;> decide)]
    refine ⟨document, hdocument, hlater.mem_of_not_matches ?_ hlasts⟩
    cases heffect with
    | replaceMissed hmiss =>
      obtain ⟨d, hd, hmatches⟩ := hfound
      exact absurd hmatches (hmiss d hd)
    | replaced _ _ => exact List.mem_append_right _ List.mem_cons_self
  | @deleted filter _ hstate hfilter hchanges =>
    rw [Reflected, if_pos hstate]
    obtain ⟨key, hkey, hall⟩ := hfound
    obtain ⟨key', hkey', hstored⟩ := hlasts
    cases hkey.symm.trans hkey'
    refine ⟨key, hkey, ?_⟩
    -- A document with the key would be one that the delete left or that was stored later.
    intro d hd
    rcases hlater.mem_inv hd with hd | ⟨directive, hmem, hdocument⟩
    · exact heffect.not_matches_of_deleted hall d hd
    · exact hstored directive hmem d hdocument

/-- What a save that succeeds has gone through. -/
theorem Database.save_course {db : Database} {unit unit' : UnitOfWork}
    {store store' : MemoryStore} {n : Nat}
    (h : db.save unit store = (.ok n, unit', store')) :
    ∃ course mid, Course db.schema unit course mid
      ∧ writeInOrder store (batches course) = (.ok n, store')
      ∧ unit' = db.finish mid (.ok n) := by
  unfold save saveBy at h
  split at h
  · cases h
  · rename_i written mid hprepare
    obtain ⟨course, hcourse, rfl⟩ := prepare_course hprepare
    cases hwrite : writeInOrder store (batches course) with
    | mk result store₁ =>
      simp only [hwrite, Prod.mk.injEq] at h
      obtain ⟨hresult, rfl, rfl⟩ := h
      cases Except.mapError_eq_ok_iff.mp hresult
      exact ⟨course, mid, hcourse, hwrite, rfl⟩

/-- What a save has done for a root. Of the directives for the root's collection some came
earlier, then came its own, and then the others; and if at its turn the root was found and what
was done lasted, then the collection reflects it. -/
def Saved (s : Schema) (unit : UnitOfWork) (course : List (String × List Turn))
    (store store' : MemoryStore) (id : Nat) : Prop :=
  ∃ e₀ e collection earlier turn later documents documents',
    unit.changes.entry? id = some e₀
      ∧ s.collectionName e₀.entityType.name = .ok collection
      ∧ (collection, earlier ++ turn :: later) ∈ course ∧ turn.id = id
      ∧ e.outline = e₀.outline
      ∧ Written s turn.before id e turn.directive turn.after
      ∧ Effects (earlier.map (·.directive)) (store.documents collection) documents
      ∧ Effect turn.directive documents documents'
      ∧ Effects (later.map (·.directive)) documents' (store'.documents collection)
      ∧ (turn.Found s e documents → turn.Lasts s e (later.map (·.directive)) →
        turn.Reflected s e (store'.documents collection))

theorem Course.saved {s : Schema} {unit mid : UnitOfWork} {course : List (String × List Turn)}
    {store store' : MemoryStore} {n : Nat} (hcourse : Course s unit course mid)
    (hwrite : Database.writeInOrder store (batches course) = (.ok n, store'))
    {roots : List Nat} (hroots : unit.changes.roots s = .ok roots) {id : Nat}
    (hid : id ∈ roots) : Saved s unit course store store' id := by
  obtain ⟨collection, earlier, turn, later, hmem, rfl⟩ := hcourse.exists_turn hroots hid
  obtain ⟨e, he, hname, hout, hwritten⟩ :=
    hcourse.mem_turn hmem (List.mem_append_right _ List.mem_cons_self)
  obtain ⟨e₀, he₀, hout₀⟩ := ChangeSet.entry?_of_outlines hout he
  have hnodup : ((batches course).map Prod.fst).Nodup := by
    rw [batches, List.map_map]
    exact hcourse.nodup_collections
  -- among the effects of the batch is that of the root's own turn, between those of the others
  have heffects := Database.writeInOrder_effects hnodup hwrite collection
    ((earlier ++ turn :: later).map (·.directive)) (List.mem_map.mpr ⟨_, hmem, rfl⟩)
  rw [List.map_append, List.map_cons] at heffects
  obtain ⟨documents, hearlier, hrest⟩ := heffects.append_inv
  cases hrest with
  | @cons _ _ _ documents' _ heffect hlater =>
    rw [Entry.entityType_of_outline hout₀] at hname
    exact ⟨e₀, e, collection, earlier, turn, later, documents, documents', he₀, hname, hmem, rfl,
      hout₀, hwritten, hearlier, heffect, hlater,
      fun hfound hlasts => turn.reflected_of_found hwritten heffect hlater hfound hlasts⟩

/-- **After a save that succeeds nothing is pending, and a root is reflected if it was found and
if that lasted.** Entries have types of the schema, which finds them by their names. -/
theorem save_reflected {db : Database} {unit unit' : UnitOfWork} {store store' : MemoryStore}
    {n : Nat} (hsave : db.save unit store = (.ok n, unit', store'))
    (haccept : db.acceptOnSuccess = true) :
    unit'.changes.pending = []
      ∧ ∃ roots course mid, unit.changes.roots db.schema = .ok roots
        ∧ Course db.schema unit course mid ∧ unit'.changes = mid.changes.acceptAll
        ∧ ∀ id ∈ roots, Saved db.schema unit course store store' id := by
  obtain ⟨course, mid, hcourse, hwrite, rfl⟩ := Database.save_course hsave
  have hfinish : (db.finish mid (.ok n)).changes = mid.changes.acceptAll := by
    rw [Database.finish, haccept]
    rfl
  obtain ⟨roots, hroots, _⟩ := ChangeSet.groups_grouped hcourse.groups
  refine ⟨?_, roots, course, mid, hroots, hcourse, hfinish, ?_⟩
  · rw [hfinish, ChangeSet.pending_acceptAll]
  · intro id hid
    exact hcourse.saved hwrite hroots hid

/-- A pet that is renamed and another one that comes in. -/
def renameAndAdd : UnitOfWork :=
  petUnit [petEntry .never 0 .modified 1 2 "b", petEntry .never 1 .added 2 1 "c"]

theorem save_reflected_renameAndAdd : ∃ unit' store',
    Database.save { schema := pets .never } renameAndAdd (petStore [petDocument 1 2 "a"])
      = (.ok 2, unit', store')
      ∧ ({ schema := pets .never } : Database).acceptOnSuccess = true
      ∧ store'.documents "pets" = [petDocument 1 2 "b", petDocument 2 1 "c"]
      ∧ unit'.changes.pending = []
      ∧ ∃ roots course mid, renameAndAdd.changes.roots (pets .never) = .ok roots
        ∧ Course (pets .never) renameAndAdd course mid ∧ unit'.changes = mid.changes.acceptAll
        ∧ ∀ id ∈ roots, Saved (pets .never) renameAndAdd course
          (petStore [petDocument 1 2 "a"]) store' id := by
  obtain ⟨unit', store', hsave, hdocuments⟩ : ∃ unit' store',
      Database.save { schema := pets .never } renameAndAdd (petStore [petDocument 1 2 "a"])
        = (.ok 2, unit', store')
        ∧ store'.documents "pets" = [petDocument 1 2 "b", petDocument 2 1 "c"] :=
    ⟨_, _, rfl, rfl⟩
  exact ⟨unit', store', hsave, rfl, hdocuments, save_reflected hsave rfl⟩

/-- A pet renamed that was loaded with an old version. -/
def renameStale : UnitOfWork := petUnit [petEntry .never 0 .modified 1 1 "b"]

/-- A pet renamed and deleted at once. -/
def renameAndDelete : UnitOfWork :=
  petUnit [petEntry .never 0 .modified 1 2 "b", petEntry .never 1 .deleted 1 2 "a"]

/-- A pet deleted. -/
def deletePet : UnitOfWork := petUnit [petEntry .never 0 .deleted 1 2 "a"]

/-- **A save that succeeds may leave its roots unreflected**, in three ways. The version that a
pet was loaded with may be stale. Two roots of the save may be the same pet. And where two
documents have the key of a deleted pet, one of them stays. -/
theorem save_not_reflected :
    (∃ unit', Database.save { schema := pets .never } renameStale
          (petStore [petDocument 1 2 "a"])
        = (.ok 0, unit', petStore [petDocument 1 2 "a"])
      ∧ renameStale.changes.roots (pets .never) = .ok [0]
      ∧ unit'.changes.pending = []
      ∧ unit'.changes.compose (pets .never) 0 = .ok (petDocument 1 1 "b")
      ∧ petDocument 1 1 "b" ∉ (petStore [petDocument 1 2 "a"]).documents "pets")
    ∧ (∃ unit', Database.save { schema := pets .never } renameAndDelete
          (petStore [petDocument 1 2 "a"])
        = (.ok 2, unit', petStore [])
      ∧ renameAndDelete.changes.roots (pets .never) = .ok [0, 1]
      ∧ unit'.changes.pending = []
      ∧ unit'.changes.compose (pets .never) 0 = .ok (petDocument 1 2 "b")
      ∧ petDocument 1 2 "b" ∉ (petStore []).documents "pets")
    ∧ ∃ unit', Database.save { schema := pets .never } deletePet
          (petStore [petDocument 1 2 "a", petDocument 1 2 "b"])
        = (.ok 1, unit', petStore [petDocument 1 2 "b"])
      ∧ deletePet.changes.roots (pets .never) = .ok [0]
      ∧ unit'.changes.pending = []
      ∧ (petEntry .never 0 .deleted 1 2 "a").keyFilter (pets .never) = .ok [("_id", .int 1)]
      ∧ ∃ d ∈ (petStore [petDocument 1 2 "b"]).documents "pets",
        d.Matches [("_id", .int 1)] := by
  refine ⟨⟨_, rfl, rfl, rfl, rfl, ?_⟩, ⟨_, rfl, rfl, rfl, rfl, ?_⟩, _, rfl, rfl, rfl, rfl,
    petDocument 1 2 "b", ?_, ?_⟩
  all_goals decide

end Odm
