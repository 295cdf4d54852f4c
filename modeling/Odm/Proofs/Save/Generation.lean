import Mathlib.Algebra.GroupWithZero.Nat
import Mathlib.Algebra.Order.BigOperators.Group.List
import Mathlib.Algebra.Order.Group.Nat
import Mathlib.Data.List.Perm.Subperm
import Odm.Proofs.Save.Rediscovery
import Odm.Proofs.Update.Generated

/-!
# Generated values in stored documents

Values are generated for a root at its turn, before its document is composed. So when the source of
values is ready for all roots of a save, the document that is written for a root has set values for
whatever is generated for it.

Nothing is generated for the entries that are embedded in the document. What it holds for them is
what they were tracked with, and if a value is missing there, then it is missing in the document.
-/

namespace Odm

/-! ## Demand -/

namespace ChangeSet

variable {s : Schema} {changes : ChangeSet}

/-- How many values are drawn at most when an entry is written: one for each property. -/
def demandOf (s : Schema) (changes : ChangeSet) (id : Nat) : Nat :=
  ((changes.entry? id).map fun e => (s.properties e.entityType.name).length).getD 0

/-- How many values are drawn at most when some entries are written. -/
def demand (s : Schema) (changes : ChangeSet) (ids : List Nat) : Nat :=
  (ids.map (changes.demandOf s)).sum

theorem demandOf_eq {id : Nat} {e : Entry} (he : changes.entry? id = some e) :
    changes.demandOf s id = (s.properties e.entityType.name).length := by
  rw [demandOf, he]
  rfl

/-- Entries that are written once each draw no more than all of them. -/
theorem demand_le_of_subset {ids all : List Nat} (hnodup : ids.Nodup) (h : ids ⊆ all) :
    changes.demand s ids ≤ changes.demand s all := by
  obtain ⟨_, hperm, hsub⟩ := List.subperm_of_subset hnodup h
  rw [demand, demand, ← (hperm.map _).sum_eq]
  exact (hsub.map _).sum_le_sum fun _ _ => Nat.zero_le _

end ChangeSet

/-! ## Turns -/

/-- Values are drawn for the entry at its turn, unless it is deleted. -/
theorem UnitOfWork.source_of_directive {s : Schema} {unit unit' : UnitOfWork} {id : Nat}
    {directive : Directive} (h : unit.directive s id = (.ok directive, unit')) :
    unit'.planner.source = unit.planner.source
      ∨ ∃ adding e e', unit.changes.entry? id = some e
        ∧ unit.planner.source.fill adding e (s.properties e.entityType.name)
          = (.ok (), e', unit'.planner.source) := by
  obtain ⟨e, plan, he, ⟨hname, _⟩, hwrite⟩ := exists_plan h
  by_cases hkind : plan.kind = .delete
  · rw [WritePlan.write, if_pos hkind] at hwrite
    exact .inl (Prod.mk.inj (Prod.mk.inj hwrite).2).2.symm
  · obtain ⟨e', hfill, _, _⟩ := WritePlan.write_eq_ok he hkind hwrite
    rw [hname] at hfill
    exact .inr ⟨_, e, e', he, hfill⟩

/-- **A turn draws no more than its entry asks for.** -/
theorem ValueSource.Ready.directive {s : Schema} {unit unit' : UnitOfWork} {id k : Nat}
    {directive : Directive} (hready : unit.planner.source.Ready (unit.changes.demandOf s id + k))
    (h : unit.directive s id = (.ok directive, unit')) : unit'.planner.source.Ready k := by
  rcases UnitOfWork.source_of_directive h with hsame | ⟨adding, e, e', he, hfill⟩
  · rw [hsame]
    exact hready.mono (Nat.le_add_left _ _)
  · rw [ChangeSet.demandOf_eq he] at hready
    exact (hready.fill hfill).1

/-- **At every turn the source is ready** when it is ready for all of them. -/
theorem Turns.ready {s : Schema} {unit unit' : UnitOfWork} {turns : List Turn}
    (h : Turns s unit turns unit') (hnodup : (turns.map (·.id)).Nodup)
    (hready : unit.planner.source.Ready (unit.changes.demand s (turns.map (·.id))))
    {turn : Turn} (hturn : turn ∈ turns) :
    turn.before.planner.source.Ready (turn.before.changes.demandOf s turn.id) := by
  induction h with
  | nil => cases hturn
  | @cons unit unit₁ _ id directive rest hdirective hrest ih =>
    obtain ⟨hfirst, hnodup⟩ := List.nodup_cons.mp hnodup
    rw [List.map_cons, ChangeSet.demand, List.map_cons, List.sum_cons] at hready
    rcases List.mem_cons.mp hturn with rfl | hlater
    · exact hready.mono (Nat.le_add_right _ _)
    · refine ih hnodup ?_ hlater
      -- the other entries ask for what they asked for before the turn
      have hdemand : unit₁.changes.demand s (rest.map (·.id))
          = unit.changes.demand s (rest.map (·.id)) := by
        obtain ⟨_, _, hwritten⟩ := UnitOfWork.directive_written hdirective
        rw [ChangeSet.demand, ChangeSet.demand]
        refine congrArg List.sum (List.map_congr_left fun other hother => ?_)
        have hne : id ≠ other := by
          rintro rfl
          exact hfirst hother
        rw [ChangeSet.demandOf, ChangeSet.demandOf, hwritten.entry?_ne hne]
      rw [hdemand]
      exact hready.directive hdirective

/-! ## Documents -/

namespace Entry

variable {s : Schema} {e e' : Entry} {document : Document}

/-- The document of an entry holds current values, as far as nothing else is stored there. -/
def Stores (s : Schema) (e : Entry) (document : Document) : Prop :=
  ∀ p ∈ s.properties e.entityType.name, p.isPersisted → (s.contents e.entityType).Alone p →
    document.get? p.element = e.current.get? p.name

/-- The document of an entry holds values that are set for what is generated when the entry is
written, as far as nothing else is stored there. -/
def StoresGenerated (s : Schema) (e : Entry) (document : Document) : Prop :=
  ∀ p ∈ s.properties e.entityType.name, p.isPersisted → (s.contents e.entityType).Alone p →
    (p.generation = .onAddOrUpdate ∨ p.generation = .onAdd ∧ e.state = .added) →
    ∃ v, document.get? p.element = some v ∧ v.isUnset = false

theorem stores_of_compose {changes : ChangeSet} {id : Nat} (hs : s.KnowsTargets)
    (he : changes.entry? id = some e) (h : changes.compose s id = .ok document) :
    e.Stores s document := by
  obtain ⟨later, rfl⟩ := ChangeSet.exists_document hs he h
  exact fun p hp hpersisted halone => get?_document_of_alone hp hpersisted halone

/-- An entry that has been filled stores what was to be generated. -/
theorem Stores.generated (h : e'.Stores s document) {adding : Bool}
    {source source' : ValueSource} (hadding : e.state = .added → adding)
    (hready : source.Ready (s.properties e.entityType.name).length)
    (hfill : source.fill adding e (s.properties e.entityType.name) = (.ok (), e', source')) :
    e.StoresGenerated s document := by
  intro p hp hpersisted halone hgenerated
  obtain ⟨_, _, hset⟩ := ValueSource.Ready.fill (k := 0) hready hfill
  obtain ⟨v, hv, hunset⟩ := hset p hp (hgenerated.imp_right fun h => ⟨h.1, hadding h.2⟩)
  rw [← entityType_of_outline (ValueSource.outline_of_fill hfill)] at hp halone
  exact ⟨v, (h p hp hpersisted halone).trans hv, hunset⟩

end Entry

/-- **The document that is written at a turn has what was to be generated.** It is made from the
change set as the turn leaves it. -/
theorem Written.storesGenerated {s : Schema} {unit unit' : UnitOfWork} {id : Nat} {e : Entry}
    {directive : Directive} (hs : s.KnowsTargets) (he : unit.changes.entry? id = some e)
    (h : Written s unit id e directive unit')
    (hready : unit.planner.source.Ready (unit.changes.demandOf s id)) {document : Document}
    (hdocument : directive.document? = some document) :
    unit'.changes.compose s id = .ok document ∧ e.StoresGenerated s document := by
  rw [ChangeSet.demandOf_eq he] at hready
  -- inserts and replaces are composed from the entry as it was filled
  have hwritten : ∀ {adding : Bool} {filled : Entry} {source : ValueSource},
      unit.planner.source.fill adding e (s.properties e.entityType.name)
        = (.ok (), filled, source) →
      unit'.changes = unit.changes.modify id (fun _ => filled) →
      unit'.changes.compose s id = .ok document → (e.state = .added → adding) →
      unit'.changes.compose s id = .ok document ∧ e.StoresGenerated s document := by
    intro adding filled source hfill hchanges hcompose hadding
    have hfilled : unit'.changes.entry? id = some filled := by
      rw [hchanges, ChangeSet.entry?_modify_self _ he]
    have hstores := Entry.stores_of_compose hs hfilled hcompose
    exact ⟨hcompose, hstores.generated hadding hready hfill⟩
  cases h with
  | inserted _ hfill hchanges hcompose =>
    cases hdocument
    exact hwritten hfill hchanges hcompose fun _ => rfl
  | replaced hstate hfill hchanges _ hcompose =>
    cases hdocument
    refine hwritten hfill hchanges hcompose fun hadded => ?_
    -- what is replaced was there before, so its state is not that of a new entry
    rw [hadded] at hstate
    rcases hstate with hstate | hstate <;> cases hstate
  | deleted => cases hdocument

/-! ## Saves -/

/-- In the course of a save the source is ready at the turn of each root. -/
theorem Course.ready {s : Schema} {unit mid : UnitOfWork} {course : List (String × List Turn)}
    (h : Course s unit course mid) {roots : List Nat}
    (hroots : unit.changes.roots s = .ok roots)
    (hready : unit.planner.source.Ready (unit.changes.demand s roots)) {collection : String}
    {turns : List Turn} (hturns : (collection, turns) ∈ course) {turn : Turn}
    (hturn : turn ∈ turns) :
    turn.before.planner.source.Ready (turn.before.changes.demandOf s turn.id) := by
  have hids : (course.flatMap Prod.snd).map (·.id) ⊆ roots := by
    intro id hid
    obtain ⟨other, hother, rfl⟩ := List.mem_map.mp hid
    exact h.mem_roots hroots hother
  refine h.turns.ready h.nodup_ids (hready.mono ?_) (List.mem_flatMap.mpr ⟨_, hturns, hturn⟩)
  exact ChangeSet.demand_le_of_subset h.nodup_ids hids

/-- A change set from which the document of a root was composed. It has the tracked entries, and
only roots may have other values. The document holds what is generated for the root. What it holds
for any other entry that is composed into it is what the entry was tracked with. -/
structure ChangeSet.Composes (s : Schema) (changes : ChangeSet) (roots : List Nat) (e : Entry)
    (document : Document) (after : ChangeSet) : Prop where
  outlines : after.outlines = changes.outlines
  entry?_eq : ∀ id, id ∉ roots → after.entry? id = changes.entry? id
  compose : after.compose s e.id = .ok document
  generated : e.StoresGenerated s document
  embedded : ∀ part ∈ changes.entries, part.id ∉ roots → ∀ top path,
    after.entry? e.id = some top → after.ComposedAt s top part path →
      ∃ inner : Document, document.toValue.follow? path = some inner.toValue
        ∧ part.Stores s inner

/-- **The document that is written for a root** is composed once values have been generated for
it. -/
theorem Course.composes {s : Schema} {unit mid : UnitOfWork} {course : List (String × List Turn)}
    (h : Course s unit course mid) (hs : s.KnowsTargets) (hunit : unit.changes.Tracked s)
    {roots : List Nat} (hroots : unit.changes.roots s = .ok roots)
    (hready : unit.planner.source.Ready (unit.changes.demand s roots)) {collection : String}
    {turns : List Turn} (hturns : (collection, turns) ∈ course) {turn : Turn}
    (hturn : turn ∈ turns) {e : Entry} (he : unit.changes.entry? turn.id = some e)
    {document : Document} (hdocument : turn.directive.document? = some document) :
    unit.changes.Composes s roots e document turn.after.changes := by
  have hmem : turn ∈ course.flatMap Prod.snd := List.mem_flatMap.mpr ⟨_, hturns, hturn⟩
  obtain ⟨hout, e₀, he₀, hwritten⟩ := h.turns.mem_written hmem
  rw [(h.entry?_turn hturns hturn).1] at he₀
  cases he.symm.trans he₀
  have hbefore := (h.entry?_turn hturns hturn).1.trans he
  have houtlines := (hwritten.outlines hbefore).trans hout
  have hothers : ∀ id, id ∉ roots →
      turn.after.changes.entry? id = unit.changes.entry? id := by
    intro id hid
    refine h.turns.entry?_after hmem fun hhas => hid ?_
    obtain ⟨other, hother, rfl⟩ := List.mem_map.mp hhas
    exact h.mem_roots hroots hother
  obtain ⟨hcompose, hgenerated⟩ :=
    hwritten.storesGenerated hs hbefore (h.ready hroots hready hturns hturn) hdocument
  rw [← hunit.id _ _ he] at hcompose
  refine ⟨houtlines, hothers, hcompose, hgenerated, ?_⟩
  intro part hpart hnot top path htop hcomposed
  -- the part has no turn, so its document is made from the values it was tracked with
  have hentry : turn.after.changes.entry? part.id = some part :=
    (hothers _ hnot).trans (hunit.numbered.entry?_id hpart)
  obtain ⟨inner, hinner⟩ : ∃ inner, turn.after.changes.compose s part.id = .ok inner :=
    ⟨_, ChangeSet.compose_eq_documentOf hs hentry⟩
  have hafter := hunit.of_outlines houtlines
  obtain ⟨whole, hwhole, hfollow⟩ := hcomposed.follow? hafter hinner
  have hid : top.id = e.id := hafter.id _ _ htop
  rw [hid, hcompose] at hwhole
  cases hwhole
  exact ⟨inner, hfollow, Entry.stores_of_compose hs hentry hinner⟩

/-- **Generated values reach the roots.** When a save has been prepared from a source that is ready
for its roots, then each directive is that of a root. A document in it has set values for what is
generated on every write, and for what is generated on add if the root is new. Generating values
changes roots only, so the document holds for every other entry what that was tracked with. -/
theorem generated_values_stored {m : Model} {naming : CollectionNaming} {db : Database}
    {unit mid : UnitOfWork} {written : List Batch}
    (h : m.finish (Convention.defaults naming) = .ok db.schema)
    (hunit : unit.changes.Tracked db.schema) (hprepare : db.prepare unit = (.ok written, mid)) :
    ∃ roots, unit.changes.roots db.schema = .ok roots
      ∧ (unit.planner.source.Ready (unit.changes.demand db.schema roots) →
        ∀ batch ∈ written, List.Forall₂ (fun id directive =>
            ∃ e, unit.changes.entry? id = some e
              ∧ e.state.directiveKind? = some directive.kind
              ∧ ∀ document, directive.document? = some document →
                ∃ after, unit.changes.Composes db.schema roots e document after)
          (unit.changes.storedIn db.schema batch.1 roots) batch.2) := by
  obtain ⟨course, hcourse, rfl⟩ := Database.prepare_course hprepare
  obtain ⟨roots, hroots, _⟩ := ChangeSet.groups_grouped hcourse.groups
  refine ⟨roots, hroots, fun hready batch hbatch => ?_⟩
  obtain ⟨⟨collection, turns⟩, hturns, rfl⟩ := List.mem_map.mp hbatch
  rw [(hcourse.storedIn_eq hroots hturns).1, List.forall₂_map_left_iff,
    List.forall₂_map_right_iff, List.forall₂_same]
  intro turn hturn
  obtain ⟨e, he, _, hwritten⟩ := hcourse.written_turn hturns hturn
  refine ⟨e, he, hwritten.directiveKind?, fun document hdocument => ?_⟩
  exact ⟨_, hcourse.composes (Model.finish_ownsTargets h).knowsTargets hunit hroots hready hturns
    hturn he hdocument⟩

/-! ## Parcels -/

/-- Parcels and their addresses, whose codes are generated for new ones. -/
def parcelModel : Model where
  types := [
    { name := "Address"
      properties := [⟨"City", "Address", .string, none, false, false, none⟩,
        ⟨"Code", "Address", .int32, none, false, false, some .onAdd⟩] },
    { name := "Parcel"
      properties := [⟨"Id", "Parcel", .int32, none, false, false, none⟩]
      navigations := [⟨"To", "Parcel", "Address", false, true⟩] }]

/-- Parcels and their addresses. -/
def parcels : Schema where
  types := [
    { name := "Address"
      isOwned := true
      isComplex := true
      discriminatorValue := some "Address"
      ownership := some ⟨"Parcel", "To", false⟩
      properties := [⟨"City", "Address", .string, none, false, false, none⟩,
        ⟨"Code", "Address", .int32, none, false, false, some .onAdd⟩] },
    { name := "Parcel"
      collection := some "Parcel"
      discriminatorValue := some "Parcel"
      key := some ["Id"]
      properties := [⟨"Id", "Parcel", .int32, some "_id", false, false, some .onAdd⟩]
      navigations := [⟨"To", "Parcel", "Address", false, true⟩] }]
  discriminatorElement := "_t"

theorem finish_parcelModel :
    parcelModel.finish (Convention.defaults .typeName) = .ok parcels := rfl

/-- A new parcel, whose id is to be generated. -/
def newParcel : Entry :=
  ⟨0, parcels.types.get ⟨1, by decide⟩, .added, [], [], none⟩

/-- Where the parcel goes to. -/
def newAddress : Entry :=
  ⟨1, parcels.types.get ⟨0, by decide⟩, .added, [("City", .str "Rome")], [], some 0⟩

/-- A new parcel with its address, at a time when nothing has been generated yet. -/
def parcelUnit : UnitOfWork :=
  unitOn { entropy := { clock := 1 } } [newParcel, newAddress]

theorem tracked_parcelUnit : parcelUnit.changes.Tracked parcels where
  id i e he := by
    match i with
    | 0 | 1 =>
      cases he
      rfl
    | i + 2 => cases he
  owner := by decide
  entityType := by decide

/-- A new parcel gets its id. -/
theorem generated_values_stored_parcel :
    parcelModel.finish (Convention.defaults .typeName) = .ok parcels
      ∧ parcelUnit.changes.Tracked parcels
      ∧ parcelUnit.planner.source.Ready (parcelUnit.changes.demand parcels [0])
      ∧ ∃ document mid, Database.prepare ⟨parcels, true⟩ parcelUnit
          = (.ok [("Parcel", [.insert document])], mid)
        ∧ newParcel.StoresGenerated parcels document := by
  have hready : parcelUnit.planner.source.Ready (parcelUnit.changes.demand parcels [0]) :=
    ⟨fun _ _ => Nat.one_ne_zero, by decide, nofun⟩
  obtain ⟨document, mid, hprepare⟩ : ∃ document mid, Database.prepare ⟨parcels, true⟩ parcelUnit
      = (.ok [("Parcel", [.insert document])], mid) := ⟨_, _, rfl⟩
  refine ⟨finish_parcelModel, tracked_parcelUnit, hready, document, mid, hprepare, ?_⟩
  obtain ⟨roots, hroots, hstored⟩ :=
    generated_values_stored finish_parcelModel tracked_parcelUnit hprepare
  have hroot : parcelUnit.changes.roots parcels = .ok [0] := rfl
  cases hroot.symm.trans hroots
  have hbatch := hstored hready _ List.mem_cons_self
  cases hbatch with
  | cons hfirst _ =>
    obtain ⟨e, he, _, hdocument⟩ := hfirst
    cases he
    exact (hdocument document rfl).choose_spec.generated

/-! ## Values that are not stored -/

/-- Visitors with numbers. -/
def visitorModel : Model := plainModel "Visitor" [
  ⟨"Id", "Visitor", .int32, none, false, false, none⟩]

/-- Tickets with object ids. -/
def ticketModel : Model := plainModel "Ticket" [
  ⟨"Id", "Ticket", .objectId, none, false, false, none⟩]

/-- In the schema of a model a document is inserted for new entries. It contains one of them at a
path. There it holds no value that counts as set for a property that has a field and whose values
are generated for new entries. -/
def LacksGenerated (m : Model) (source : ValueSource) (entries : Schema → List Entry) (id : Nat)
    (path : List Value.Step) (name : String) : Prop :=
  ∃ (s : Schema) (mid : UnitOfWork) (collection : String) (document inner : Document) (e : Entry)
    (p : Property),
    m.finish (Convention.defaults .typeName) = .ok s
      ∧ Database.prepare ⟨s, true⟩ (unitOn source (entries s))
        = (.ok [(collection, [.insert document])], mid)
      ∧ (entries s)[id]? = some e ∧ e.state = .added
      ∧ document.toValue.follow? path = some inner.toValue
      ∧ (s.properties e.entityType.name).find? (fun p => p.name = name) = some p
      ∧ p.isPersisted ∧ p.generation = .onAdd
      ∧ (inner.get? p.element).all Value.isUnset

/-- **A value that is to be generated may be missing** in what is stored. The code of an address is
never generated. The id of a member is generated, but its nickname is stored in its place. And an
id is zero where the sequence comes to zero, or where time, tag and counter are zero. -/
theorem generated_value_missing :
    LacksGenerated parcelModel {} (fun _ => [newParcel, newAddress]) 1 [.field "To"] "Code"
      ∧ LacksGenerated memberModel {} (fun s => [newEntry s [("Nick", .null)]]) 0 [] "Id"
      ∧ LacksGenerated visitorModel ⟨[(("Visitor", "Id"), .sequence 0)], {}⟩
        (fun s => [newEntry s []]) 0 [] "Id"
      ∧ LacksGenerated ticketModel ⟨[(("Ticket", "Id"), .objectId 0 0)], {}⟩
        (fun s => [newEntry s []]) 0 [] "Id" := by
  refine ⟨⟨_, _, _, _, _, _, _, rfl, rfl, rfl, rfl, rfl, rfl, ?_, ?_, ?_⟩,
    ⟨_, _, _, _, _, _, _, rfl, rfl, rfl, rfl, rfl, rfl, ?_, ?_, ?_⟩,
    ⟨_, _, _, _, _, _, _, rfl, rfl, rfl, rfl, rfl, rfl, ?_, ?_, ?_⟩,
    _, _, _, _, _, _, _, rfl, rfl, rfl, rfl, rfl, rfl, ?_, ?_, ?_⟩
  all_goals decide

end Odm
