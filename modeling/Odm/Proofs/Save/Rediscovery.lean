import Odm.Proofs.Save.AllOrNothing
import Odm.Proofs.Save.OneTurn
import Odm.Proofs.Update.Alone

/-!
# Finding what was inserted

The document of an entry is made from its current values, and the filter that looks for it later
from its baseline. When an insert is accepted the two are the same, and from then on edits change
the current values only. So the filter can always be made, and it asks for what the document holds.

That holds as far as documents tell what the filter asks for. A key without a field is in no
document. Where something else is stored under the element of a key or of a concurrency token, the
document may hold that instead. And a token without a value has no baseline, so a value that an edit
gives to it is asked for although no document has it.
-/

namespace Odm

/-- An entry with other current values, perhaps in another state. -/
def Entry.EditOf (edited e : Entry) : Prop :=
  { edited with state := e.state, current := e.current } = e

/-- Documents of a type tell what filters ask for: they have fields for the key, and nothing else is
stored under the elements of the key and of the concurrency tokens. -/
structure Schema.Identifies (s : Schema) (t : EntityType) : Prop where
  stored : ∀ p ∈ s.keyProperties t.name, p.isPersisted
  alone : ∀ p ∈ s.identifying t, (s.contents t).Alone p

/-- An edit gives no value to an identifying property that has none. -/
def Entry.LeavesUnset (s : Schema) (e edited : Entry) : Prop :=
  ∀ p ∈ s.identifying e.entityType, e.current.get? p.name = none →
    edited.current.get? p.name = none

namespace Entry.EditOf

variable {s : Schema} {e edited : Entry}

theorem entityType (h : edited.EditOf e) : edited.entityType = e.entityType := by
  have htype := congrArg Entry.entityType h
  exact htype

theorem baseline (h : edited.EditOf e) : edited.baseline = e.baseline := by
  have hbaseline := congrArg Entry.baseline h
  exact hbaseline

/-- What has the outline of an edit is an edit. -/
theorem of_outline {e' : Entry} (h : edited.EditOf e) (hout : e'.outline = edited.outline) :
    e'.EditOf e := by
  have hsame : { e' with state := e.state, current := e.current }
      = { edited with state := e.state, current := e.current } :=
    congrArg (fun o : Entry => { o with state := e.state, current := e.current }) hout
  exact hsame.trans h

end Entry.EditOf

/-! ## Inserted entries -/

/-- What is left of an entry and of its document when it has been inserted and accepted. -/
structure Entry.InsertedAs (s : Schema) (e : Entry) (document : Document) : Prop where
  baseline : e.baseline = e.current
  /-- What is generated on every write has been generated. -/
  generated : ∀ p ∈ s.properties e.entityType.name, p.generation = .onAddOrUpdate →
    (e.current.get? p.name).isSome
  /-- The document was made from the values that were accepted. -/
  document : ∃ (e' : Entry) (later : Documents), e'.entityType = e.entityType
    ∧ e'.current = e.current ∧ document = e'.document s later

namespace Entry.InsertedAs

variable {s : Schema} {e edited : Entry} {document : Document}

/-- The document holds the accepted value of a property that is alone under its element. -/
theorem get?_eq (h : e.InsertedAs s document) {p : Property}
    (hp : p ∈ s.properties e.entityType.name) (hpersisted : p.isPersisted)
    (halone : (s.contents e.entityType).Alone p) :
    document.get? p.element = e.current.get? p.name := by
  obtain ⟨e', later, htype, hcurrent, rfl⟩ := h.document
  rw [← hcurrent]
  rw [← htype] at hp halone
  exact Entry.get?_document_of_alone hp hpersisted halone

/-- **The filter of an edited entry matches the document that was inserted.** -/
theorem exists_filter (h : e.InsertedAs s document) (hedit : edited.EditOf e)
    (hkey : s.keyProperties e.entityType.name ≠ [])
    (hset : ∀ p ∈ s.keyProperties e.entityType.name,
      ∃ v, e.current.get? p.name = some v ∧ v ≠ .null) :
    ∃ filter, edited.filter s = .ok filter
      ∧ (s.Identifies e.entityType → e.LeavesUnset s edited → document.Matches filter) := by
  have hbaseline : ∀ name v, e.current.get? name = some v →
      edited.baselineValue? name = some v := by
    intro name v hv
    rw [Entry.baselineValue?, hedit.baseline, h.baseline, hv]
    rfl
  have hfilter : ∃ filter, edited.filter s = .ok filter
      ∧ ∀ document : Document, (∀ p ∈ s.identifying edited.entityType,
        document.get? p.element = edited.baselineValue? p.name) → document.Matches filter := by
    refine Entry.exists_filter (by rwa [hedit.entityType]) ?_
    rw [hedit.entityType]
    intro p hp
    obtain ⟨v, hv, hnull⟩ := hset p hp
    exact ⟨v, hbaseline _ _ hv, hnull⟩
  obtain ⟨filter, hfilter, hmatches⟩ := hfilter
  refine ⟨filter, hfilter, fun hidentifies hleaves => hmatches document ?_⟩
  rw [hedit.entityType]
  intro p hp
  have hpersisted : p.isPersisted := by
    rcases List.mem_append.mp hp with hkey | htoken
    · exact hidentifies.stored p hkey
    · have htoken := (List.mem_filter.mp htoken).2
      rw [Bool.and_eq_true] at htoken
      exact htoken.2
  rw [h.get?_eq (Schema.mem_properties_of_identifying hp) hpersisted (hidentifies.alone p hp)]
  cases hcurrent : e.current.get? p.name with
  | some v => exact (hbaseline _ _ hcurrent).symm
  | none =>
    -- the value would come from the edit, which gives none
    rw [Entry.baselineValue?, hedit.baseline, h.baseline, hcurrent, hleaves p hp hcurrent]
    rfl

/-- Generating values for a replace gives none to a property that had none when it was inserted. -/
theorem leavesUnset_of_fill (h : e.InsertedAs s document) (hedit : edited.EditOf e)
    (hstate : edited.state = .modified ∨ edited.state = .unchanged)
    (hleaves : e.LeavesUnset s edited) {source source' : ValueSource} {filled : Entry}
    (hfill : source.fill false edited (s.properties edited.entityType.name)
      = (.ok (), filled, source')) : e.LeavesUnset s filled := by
  have hrefilled : edited.Refilled (s.properties edited.entityType.name) filled := by
    have hrefilled : edited.Refilled (s.properties edited.entityType.name)
        (source.fill false edited (s.properties edited.entityType.name)).2.1 :=
      ValueSource.fill_refilled (List.Subset.refl _) nofun (.inr hstate)
    rwa [hfill] at hrefilled
  intro p hp hnone
  by_cases hsame : filled.current.get? p.name = edited.current.get? p.name
  · rw [hsame, hleaves p hp hnone]
  · obtain ⟨q, hq, hname, hgenerates⟩ := hrefilled.current p.name hsame
    rw [hedit.entityType] at hq
    -- in these states only what is generated on every write gets a value
    have hgeneration : q.generation = .onAddOrUpdate := by
      unfold Entry.Generates at hgenerates
      cases hgeneration : q.generation with
      | never => rw [hgeneration] at hgenerates; exact hgenerates.elim
      | onAdd =>
        rw [hgeneration] at hgenerates
        rcases hstate with hstate | hstate <;> (rw [hstate] at hgenerates; cases hgenerates.1)
      | onAddOrUpdate => rfl
    have hsome := h.generated q hq hgeneration
    rw [hname, hnone] at hsome
    cases hsome

/-- **A replace or delete finds the document that was inserted.** -/
theorem found (h : e.InsertedAs s document) (hedit : edited.EditOf e)
    (hkey : s.keyProperties e.entityType.name ≠ [])
    (hset : ∀ p ∈ s.keyProperties e.entityType.name,
      ∃ v, e.current.get? p.name = some v ∧ v ≠ .null)
    {unit unit' : UnitOfWork} {directive : Directive}
    (hentry : unit.changes.entry? e.id = some edited) (hstate : edited.state ≠ .added)
    (hdirective : unit.directive s e.id = (.ok directive, unit')) :
    ∃ filter, directive.filter? = some filter
      ∧ (s.Identifies e.entityType → e.LeavesUnset s edited → document.Matches filter) := by
  obtain ⟨e', he', hwritten⟩ := UnitOfWork.directive_written hdirective
  cases hentry.symm.trans he'
  cases hwritten with
  | inserted hadded => exact absurd hadded hstate
  -- generated values are no part of a baseline, so that both filters are made alike
  | @replaced filled _ filter _ _ hstate hfill _ hfilter _ =>
    obtain ⟨filter', hfilter', hmatches⟩ :=
      h.exists_filter (hedit.of_outline (ValueSource.outline_of_fill hfill)) hkey hset
    cases hfilter.symm.trans hfilter'
    exact ⟨filter, rfl, fun hidentifies hleaves =>
      hmatches hidentifies (h.leavesUnset_of_fill hedit hstate hleaves hfill)⟩
  | @deleted filter _ _ hfilter _ =>
    obtain ⟨filter', hfilter', hmatches⟩ := h.exists_filter hedit hkey hset
    cases hfilter.symm.trans hfilter'
    exact ⟨filter, rfl, hmatches⟩

end Entry.InsertedAs

/-! ## Saves that insert -/

theorem ChangeSet.entry?_acceptAll {changes : ChangeSet} {id : Nat} {e : Entry}
    (h : changes.entry? id = some e) : entry? changes.acceptAll id = some e.accept := by
  unfold entry? at h ⊢
  rw [acceptAll, List.getElem?_map, h, Option.map_some]

/-- What is inserted at a turn is what is there once everything is accepted. -/
theorem Course.insertedAs {s : Schema} {unit mid : UnitOfWork}
    {course : List (String × List Turn)} (h : Course s unit course mid) (hs : s.KnowsTargets)
    (hnumbered : unit.changes.Numbered) {collection : String} {turns : List Turn}
    (hturns : (collection, turns) ∈ course) {turn : Turn} (hturn : turn ∈ turns) {e : Entry}
    (he : unit.changes.entry? turn.id = some e) (hadded : e.state = .added) :
    ∃ document accepted, turn.directive = .insert document
      ∧ mid.changes.acceptAll.entry? turn.id = some accepted
      ∧ accepted.id = turn.id ∧ accepted.entityType = e.entityType
      ∧ accepted.state = .unchanged ∧ accepted.InsertedAs s document := by
  obtain ⟨e₀, he₀, _, hwritten⟩ := h.written_turn hturns hturn
  cases he.symm.trans he₀
  obtain ⟨hbefore, hafter⟩ := h.entry?_turn hturns hturn
  rw [he] at hbefore
  -- only an insert is for an entry that was added
  generalize hd : turn.directive = directive at hwritten
  cases hwritten with
  | replaced hstate => rw [hadded] at hstate; rcases hstate with hstate | hstate <;> cases hstate
  | deleted hstate => rw [hadded] at hstate; cases hstate
  | @inserted filled source document _ _ hfill hchanges hdocument =>
    have hout := ValueSource.outline_of_fill hfill
    have hfilled : turn.after.changes.entry? turn.id = some filled := by
      rw [hchanges, ChangeSet.entry?_modify_self _ hbefore]
    -- the document of the insert is composed from the filled entry, and accepting keeps its values
    obtain ⟨later, hlater⟩ := ChangeSet.exists_document hs hfilled hdocument
    have htype : filled.entityType = e.entityType := Entry.entityType_of_outline hout
    have hid := Entry.id_of_outline hout
    rw [hnumbered _ _ he] at hid
    rw [hfilled] at hafter
    refine ⟨document, filled.accept, rfl, ChangeSet.entry?_acceptAll hafter, hid, htype, ?_, ?_⟩
    · rw [Entry.accept, Entry.state_of_outline hout, hadded]
      rfl
    · refine { baseline := rfl, generated := ?_, document := ⟨filled, later, rfl, rfl, hlater⟩ }
      intro p hp hgeneration
      replace hp : p ∈ s.properties e.entityType.name := htype ▸ hp
      obtain ⟨_, v, _, _, hv⟩ := ValueSource.exists_draw hgeneration hp hfill
      replace hv : filled.accept.current.get? p.name = some v := hv
      rw [hv]
      rfl

/-- What a save that succeeds has gone through, whichever way it goes. -/
theorem Database.saveOn_course {σ : Type} [DocumentStore σ] {db : Database} {way : Way σ}
    {unit unit' : UnitOfWork} {store store' : σ} {n : Nat}
    (h : db.saveOn way unit store = (.ok n, unit', store')) :
    ∃ course mid, Course db.schema unit course mid
      ∧ db.prepare unit = (.ok (batches course), mid) ∧ unit' = db.finish mid (.ok n) := by
  cases hprepare : db.prepare unit with
  | mk prepared mid =>
    cases prepared with
    | error e =>
      rw [saveOn, saveBy_of_error hprepare] at h
      cases h
    | ok written =>
      rw [saveOn, saveBy_of_ok hprepare] at h
      -- whatever the way of writing, the batches are those of the course
      obtain ⟨course, hcourse, rfl⟩ := prepare_course hprepare
      cases hwrite : way.write store (batches course) with
      | mk result store₁ =>
        simp only [hwrite, Prod.mk.injEq] at h
        obtain ⟨hresult, rfl, _⟩ := h
        cases Except.mapError_eq_ok_iff.mp hresult
        exact ⟨course, mid, hcourse, rfl, rfl⟩

/-- **What was inserted is found again.** When a save has inserted an entry and accepted it, with
values for its whole key, then the filter of the entry can be made however the entry is edited, and
so for every replace or delete of it. It matches the document of the insert, as long as documents of
the type tell what filters ask for and no value is given to a concurrency token that had none.
Entries have types of the schema, which finds them by their names. -/
theorem inserted_found {σ : Type} [DocumentStore σ] {m : Model} {naming : CollectionNaming}
    {db : Database} {way : Way σ} {unit unit' : UnitOfWork} {store store' : σ} {n id : Nat}
    {e : Entry} (h : m.finish (Convention.defaults naming) = .ok db.schema)
    (haccept : db.acceptOnSuccess) (hunit : unit.changes.Numbered)
    (hsave : db.saveOn way unit store = (.ok n, unit', store'))
    (he : unit.changes.entry? id = some e) (hadded : e.state = .added)
    (hstored : db.schema.isDocumentRoot e.entityType.name) :
    ∃ course mid collection turns turn document accepted,
      Course db.schema unit course mid ∧ db.prepare unit = (.ok (batches course), mid)
      ∧ (collection, turns) ∈ course ∧ turn ∈ turns ∧ turn.id = id
      ∧ db.schema.collectionName e.entityType.name = .ok collection
      ∧ turn.directive = .insert document
      ∧ unit'.changes.entry? id = some accepted ∧ accepted.state = .unchanged
      ∧ accepted.entityType = e.entityType
      ∧ (db.schema.keyProperties e.entityType.name ≠ [] →
        (∀ p ∈ db.schema.keyProperties e.entityType.name,
          ∃ v, accepted.current.get? p.name = some v ∧ v ≠ .null) →
        ∀ edited : Entry, edited.EditOf accepted →
          (∃ filter, edited.filter db.schema = .ok filter
            ∧ (db.schema.Identifies e.entityType → accepted.LeavesUnset db.schema edited →
              document.Matches filter))
          ∧ ∀ (later later' : UnitOfWork) (directive : Directive),
            later.changes.entry? id = some edited → edited.state ≠ .added →
            later.directive db.schema id = (.ok directive, later') →
            ∃ filter, directive.filter? = some filter
              ∧ (db.schema.Identifies e.entityType → accepted.LeavesUnset db.schema edited →
                document.Matches filter)) := by
  obtain ⟨course, mid, hcourse, hprepare, rfl⟩ := Database.saveOn_course hsave
  have hfinish : (db.finish mid (.ok n)).changes = mid.changes.acceptAll := by
    rw [Database.finish, haccept]
    rfl
  -- the pending entry is stored in its own document, so it is a root and has a turn
  obtain ⟨collection, turns, turn, hturns, hturn, rfl⟩ :=
    hcourse.exists_turn_of_pending hunit he (by rw [hadded]; rfl) hstored
  obtain ⟨document, accepted, hdirective, haccepted, hid, htype, hstate, hinserted⟩ :=
    hcourse.insertedAs (Model.finish_ownsTargets h).knowsTargets hunit hturns hturn he hadded
  obtain ⟨e₀, he₀, hcollection, _⟩ := hcourse.written_turn hturns hturn
  cases he.symm.trans he₀
  refine ⟨course, mid, collection, turns, turn, document, accepted, hcourse, hprepare, hturns,
    hturn, rfl, hcollection, hdirective, by rwa [hfinish], hstate, htype, ?_⟩
  -- the accepted entry has the type of the one that was added
  rw [← htype]
  intro hkey hset edited hedit
  refine ⟨hinserted.exists_filter hedit hkey hset, ?_⟩
  rw [← hid]
  intro later later' directive hentry hnew hlater
  exact hinserted.found hedit hkey hset hentry hnew hlater

/-! ## A newcomer -/

instance (s : Schema) (e edited : Entry) : Decidable (e.LeavesUnset s edited) :=
  inferInstanceAs (Decidable (∀ p ∈ s.identifying e.entityType,
    e.current.get? p.name = none → edited.current.get? p.name = none))

/-- A new pet, whose version is generated. -/
def newcomer : Entry := petEntry .onAddOrUpdate 0 .added 8 0 "Rex"

/-- The new pet once it has been saved. -/
def savedNewcomer : Entry := petEntry .onAddOrUpdate 0 .unchanged 8 1 "Rex"

/-- The saved pet with another name. -/
def renamedNewcomer : Entry :=
  { savedNewcomer.setValue "Name" (.str "Max") with state := .modified }

/-- The new pet is found by its key and its generated version when it gets another name. -/
theorem inserted_found_newcomer :
    Model.finish ⟨(pets .onAddOrUpdate).toCatalog, "_t"⟩ (Convention.defaults .pluralCamelCase)
        = .ok (pets .onAddOrUpdate)
      ∧ (∃ unit' store', Database.saveOn ⟨pets .onAddOrUpdate, true⟩ .inOrder
          (petUnit [newcomer]) (petStore []) = (.ok 1, unit', store')
        ∧ unit'.changes.entry? 0 = some savedNewcomer
        ∧ store'.documents "pets" = [petDocument 8 1 "Rex"])
      ∧ ∃ filter, renamedNewcomer.filter (pets .onAddOrUpdate) = .ok filter
        ∧ (petDocument 8 1 "Rex").Matches filter := by
  have hmodel : Model.finish ⟨(pets .onAddOrUpdate).toCatalog, "_t"⟩
      (Convention.defaults .pluralCamelCase) = .ok (pets .onAddOrUpdate) := rfl
  have he : (petUnit [newcomer]).changes.entry? 0 = some newcomer := rfl
  have hunit : (petUnit [newcomer]).changes.Numbered := by
    intro i e he
    obtain ⟨hi, rfl⟩ := List.getElem?_eq_some_iff.mp he
    cases Nat.lt_one_iff.mp hi
    rfl
  obtain ⟨unit', store', hsave, hsaved, hdocuments⟩ : ∃ unit' store',
      Database.saveOn ⟨pets .onAddOrUpdate, true⟩ .inOrder (petUnit [newcomer]) (petStore [])
        = (.ok 1, unit', store') ∧ unit'.changes.entry? 0 = some savedNewcomer
        ∧ store'.documents "pets" = [petDocument 8 1 "Rex"] := ⟨_, _, rfl, rfl, rfl⟩
  refine ⟨hmodel, ⟨unit', store', hsave, hsaved, hdocuments⟩, ?_⟩
  obtain ⟨course, mid, collection, turns, turn, document, accepted, _, hprepare, hturns, hturn, _,
    _, hdirective, haccepted, _, _, hfound⟩ := inserted_found hmodel rfl hunit hsave he rfl rfl
  cases hsaved.symm.trans haccepted
  -- the only directive of the save is the insert of the new pet
  have hbatches : (Database.prepare ⟨pets .onAddOrUpdate, true⟩ (petUnit [newcomer])).1
      = .ok [("pets", [.insert (petDocument 8 1 "Rex")])] := rfl
  rw [hprepare] at hbatches
  have hmem : (collection, turns.map (·.directive)) ∈ batches course :=
    List.mem_map_of_mem hturns
  rw [Except.ok.inj hbatches, List.mem_singleton] at hmem
  have hinsert : turn.directive ∈ turns.map (·.directive) := List.mem_map_of_mem hturn
  rw [(Prod.mk.inj hmem).2, List.mem_singleton, hdirective] at hinsert
  cases hinsert
  obtain ⟨filter, hfilter, hmatches⟩ :=
    (hfound (by decide) (by decide) renamedNewcomer rfl).1
  exact ⟨filter, hfilter, hmatches ⟨by decide, by decide⟩ (by decide)⟩

/-! ## Members, visits and drafts -/

/-- A model of one type, with its properties. -/
def plainModel (name : String) (properties : List Property) : Model where
  types := [{ name := name, properties := properties }]

theorem Planner.sound_nil : ∀ known ∈ ([] : List ((String × EntityState) × WritePlan)),
    known.2.IsFor known.1.1 known.1.2 :=
  fun _ h => absurd h List.not_mem_nil

/-- A unit of work that has planned nothing and takes generated values from a source. -/
def unitOn (source : ValueSource) (entries : List Entry) : UnitOfWork where
  changes := ⟨entries⟩
  planner := ⟨[], source, Planner.sound_nil⟩

/-- A new entry for the one type of a schema. -/
def newEntry (s : Schema) (values : Document) : Entry :=
  ⟨0, s.types.headD default, .added, values, [], none⟩

/-- In the schema of a model an entry has been inserted and accepted, and its type has a key whose
values are all set. Yet once a value of the entry is set, the filter does not match the document. -/
def Loses (m : Model) (values : Document) (name : String) (v : Value) : Prop :=
  ∃ (s : Schema) (unit' : UnitOfWork) (store' : MemoryStore) (document : Document)
    (accepted : Entry) (filter : Document),
    m.finish (Convention.defaults .typeName) = .ok s
      ∧ Database.save ⟨s, true⟩ (unitOn {} [newEntry s values]) {} = (.ok 1, unit', store')
      ∧ store'.documents (newEntry s values).entityType.name = [document]
      ∧ unit'.changes.entry? 0 = some accepted
      ∧ s.keyProperties accepted.entityType.name ≠ []
      ∧ (∀ p ∈ s.keyProperties accepted.entityType.name,
        ∃ v, accepted.current.get? p.name = some v ∧ v ≠ .null)
      ∧ (accepted.setValue name v).filter s = .ok filter
      ∧ ¬ document.Matches filter

/-- Members, whose nicknames are stored under the element of the key. -/
def memberModel : Model := plainModel "Member" [
  ⟨"Id", "Member", .int32, none, false, false, none⟩,
  ⟨"Nick", "Member", .string, some "_id", false, false, none⟩]

/-- Visits, whose key has no field. -/
def visitModel : Model := plainModel "Visit" [
  ⟨"Id", "Visit", .int32, some "", false, false, none⟩,
  ⟨"Place", "Visit", .string, none, false, false, none⟩]

/-- Drafts, whose tags are concurrency tokens. -/
def draftModel : Model := plainModel "Draft" [
  ⟨"Id", "Draft", .int32, none, false, false, none⟩,
  ⟨"Tag", "Draft", .string, none, false, true, none⟩]

/-- **What was inserted may not be found**, in three ways. The nickname of a member is where its key
should be. The key of a visit is nowhere. And the first tag of a draft, which was inserted without
one, is taken for the tag that it was inserted with. -/
theorem inserted_not_found :
    Loses memberModel [("Id", .int 1), ("Nick", .str "Bo")] "Nick" (.str "Jo")
      ∧ Loses visitModel [("Id", .int 1), ("Place", .str "Rome")] "Place" (.str "Oslo")
      ∧ Loses draftModel [("Id", .int 1)] "Tag" (.str "new") := by
  refine ⟨⟨_, _, _, _, _, _, rfl, rfl, rfl, rfl, ?_, ?_, rfl, ?_⟩,
    ⟨_, _, _, _, _, _, rfl, rfl, rfl, rfl, ?_, ?_, rfl, ?_⟩,
    _, _, _, _, _, _, rfl, rfl, rfl, rfl, ?_, ?_, rfl, ?_⟩
  all_goals decide

end Odm
