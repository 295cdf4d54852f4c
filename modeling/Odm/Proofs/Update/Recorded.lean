import Odm.Proofs.Update.Alone

/-!
# Filters and recorded values

The filter of a replace is made after values have been generated for its entry, and a property whose
original value is not recorded has its current value in the filter. So what matters is which
properties are *settled*: those whose original value is recorded, and those for which a replace
generates no value. If all properties that a filter asks for are settled, it is the filter with
which the entry would have been deleted before. A property that is not settled has its new value in
the filter, under which nothing can be stored yet.
-/

namespace Odm

/-! ## What is generated for a replace -/

/-- Where nothing is added, values are drawn only for what is generated on every write. -/
theorem ValueSource.generation_of_mem_draws {q : Property} {v : Value}
    {properties : List Property} :
    ∀ {source : ValueSource} {e : Entry}, (q, v) ∈ source.draws false e properties →
      q ∈ properties ∧ q.generation = .onAddOrUpdate := by
  induction properties with
  | nil => exact fun h => absurd h List.not_mem_nil
  | cons p rest ih =>
    intro source e h
    rw [draws] at h
    split at h
    · rename_i hneeds
      cases hnext : source.next p with
      | error err => rw [hnext] at h; cases h
      | ok result =>
        rw [hnext] at h
        rcases List.mem_cons.mp h with heq | h
        · cases heq
          refine ⟨List.mem_cons_self, ?_⟩
          -- without adding, the other strategies need no value
          rw [Entry.needsValue] at hneeds
          cases hgeneration : q.generation with
          | never => rw [hgeneration] at hneeds; cases hneeds
          | onAdd => rw [hgeneration] at hneeds; cases hneeds
          | onAddOrUpdate => rfl
        · obtain ⟨hmem, hgeneration⟩ := ih h
          exact ⟨List.mem_cons_of_mem _ hmem, hgeneration⟩
    · obtain ⟨hmem, hgeneration⟩ := ih h
      exact ⟨List.mem_cons_of_mem _ hmem, hgeneration⟩

namespace Entry

variable {s : Schema} {e e' : Entry} {p : Property} {filter : Document}
  {source source' : ValueSource}

/-- The original value of a property is recorded, or a replace does not generate one. -/
def Settled (s : Schema) (e : Entry) (p : Property) : Prop :=
  (e.baseline.get? p.name).isSome
    ∨ ∀ q ∈ s.properties e.entityType.name, q.name = p.name → q.generation ≠ .onAddOrUpdate

instance (s : Schema) (e : Entry) (p : Property) : Decidable (e.Settled s p) :=
  inferInstanceAs (Decidable ((e.baseline.get? p.name).isSome
    ∨ ∀ q ∈ s.properties e.entityType.name, q.name = p.name → q.generation ≠ .onAddOrUpdate))

theorem baselineValue?_of_recorded {name : String} {v : Value}
    (h : e.baseline.get? name = some v) : e.baselineValue? name = some v := by
  rw [baselineValue?, h]
  rfl

theorem baselineValue?_of_none {name : String} (h : e.baseline.get? name = none) :
    e.baselineValue? name = e.current.get? name := by
  rw [baselineValue?, h]
  rfl

/-- **A settled property** has the same value in a filter, whether values are generated first or
not. -/
theorem Settled.baselineValue?_eq (h : e.Settled s p)
    (hfill : source.fill false e (s.properties e.entityType.name) = (.ok (), e', source')) :
    e'.baselineValue? p.name = e.baselineValue? p.name := by
  have hbaseline := baseline_of_outline (ValueSource.outline_of_fill hfill)
  -- a value on record wins, whether or not one is generated
  cases hrecorded : e.baseline.get? p.name with
  | some v =>
    rw [baselineValue?_of_recorded hrecorded]
    exact baselineValue?_of_recorded (by rw [hbaseline, hrecorded])
  | none =>
    have hnone : e'.baseline.get? p.name = none := by rw [hbaseline, hrecorded]
    rw [baselineValue?_of_none hrecorded, baselineValue?_of_none hnone]
    rcases ValueSource.get?_fill p.name hfill with ⟨q, v, hdrawn, hname, _⟩ | ⟨_, hsame⟩
    · -- a value was drawn for the name, so the property would have to be recorded
      obtain ⟨hq, hgeneration⟩ := ValueSource.generation_of_mem_draws hdrawn
      rcases h with hsome | hnever
      · rw [hrecorded] at hsome
        cases hsome
      · exact absurd hgeneration (hnever q hq hname)
    · exact hsame

/-- **A property that is not settled** has a value afterwards that was drawn for it, and this is its
value in the filter. -/
theorem exists_draw_of_not_settled (h : ¬ e.Settled s p)
    (hfill : source.fill false e (s.properties e.entityType.name) = (.ok (), e', source')) :
    ∃ q v, (q, v) ∈ source.draws false e (s.properties e.entityType.name) ∧ q.name = p.name
      ∧ e'.current.get? p.name = some v ∧ e'.baselineValue? p.name = some v := by
  have hbaseline := baseline_of_outline (ValueSource.outline_of_fill hfill)
  obtain ⟨hunrecorded, hgenerated⟩ := not_or.mp h
  have hnone : e'.baseline.get? p.name = none := by
    rw [hbaseline]
    simpa using hunrecorded
  push Not at hgenerated
  obtain ⟨q₀, hq₀, hname₀, hgeneration⟩ := hgenerated
  obtain ⟨q, v, hdrawn, hname, hcurrent⟩ := ValueSource.exists_draw hgeneration hq₀ hfill
  rw [hname₀] at hname hcurrent
  exact ⟨q, v, hdrawn, hname, hcurrent, by rw [baselineValue?_of_none hnone, hcurrent]⟩

/-! ## Filters and the values they are made of -/

/-- The property has a baseline value that a key can have. -/
def Identified (e : Entry) (p : Property) : Prop :=
  ∃ v, e.baselineValue? p.name = some v ∧ v ≠ .null

theorem foldlM_addKey_eq_ok {plan : WritePlan} {keys : List Property} :
    ∀ {first last : Document}, keys.foldlM (plan.addKey e) first = .ok last →
      (∀ p ∈ keys, e.Identified p) ∧ last = keys.foldl (WritePlan.addToken e) first := by
  induction keys with
  | nil =>
    intro first last h
    cases Except.pure_eq_ok_iff.mp h
    exact ⟨nofun, rfl⟩
  | cons p rest ih =>
    intro first last h
    rw [List.foldlM_cons] at h
    obtain ⟨next, hnext, hrest⟩ := Except.bind_eq_ok_iff.mp h
    obtain ⟨hidentified, rfl⟩ := ih hrest
    -- a key is added only if it has a value that is not null
    unfold WritePlan.addKey at hnext
    split at hnext
    · cases hnext
    · cases hnext
    · rename_i v hnull hv
      cases hnext
      refine ⟨List.forall_mem_cons.mpr ⟨⟨v, hv, hnull⟩, hidentified⟩, ?_⟩
      rw [List.foldl_cons, WritePlan.addToken, hv, Option.getD_some]

/-- **A filter is made of baseline values**, those of keys and of tokens alike, but keys must have
one. -/
theorem filter_eq_ok_iff : e.filter s = .ok filter ↔ s.keyProperties e.entityType.name ≠ []
    ∧ (∀ p ∈ s.keyProperties e.entityType.name, e.Identified p)
    ∧ filter = (s.identifying e.entityType).foldl (WritePlan.addToken e) [] := by
  constructor
  · intro h
    unfold Entry.filter WritePlan.filter at h
    dsimp only at h
    split at h
    · cases h
    rename_i hkey
    -- the filter has the keys first and then the tokens
    obtain ⟨keys, hkeys, h⟩ := Except.bind_eq_ok_iff.mp h
    cases Except.pure_eq_ok_iff.mp h
    obtain ⟨hidentified, rfl⟩ := foldlM_addKey_eq_ok hkeys
    refine ⟨by simpa using hkey, hidentified, ?_⟩
    rw [Schema.identifying, List.foldl_append]
  · rintro ⟨hkey, hidentified, rfl⟩
    exact filter_eq_foldl hkey hidentified

/-- Entries of a type with the same values for all identifying properties have the same filter. -/
theorem filter_congr (htype : e'.entityType = e.entityType)
    (hvalues : ∀ p ∈ s.identifying e.entityType,
      e'.baselineValue? p.name = e.baselineValue? p.name)
    (h : e'.filter s = .ok filter) : e.filter s = .ok filter := by
  obtain ⟨hkey, hidentified, rfl⟩ := filter_eq_ok_iff.mp h
  rw [htype] at hkey hidentified ⊢
  refine filter_eq_ok_iff.mpr ⟨hkey, ?_, ?_⟩
  · intro p hp
    obtain ⟨v, hv, hnull⟩ := hidentified p hp
    rw [hvalues p (List.mem_append_left _ hp)] at hv
    exact ⟨v, hv, hnull⟩
  · refine List.foldl_ext _ _ _ ?_
    intro document p hp
    rw [WritePlan.addToken, WritePlan.addToken, hvalues p hp]

theorem get?_foldl_addToken_of_ne {element : String} {ps : List Property}
    (h : ∀ q ∈ ps, q.element ≠ element) : ∀ {document : Document},
      (ps.foldl (WritePlan.addToken e) document).get? element = document.get? element := by
  induction ps with
  | nil => exact fun {_} => rfl
  | cons q rest ih =>
    intro document
    obtain ⟨hq, hrest⟩ := List.forall_mem_cons.mp h
    rw [List.foldl_cons, ih hrest, WritePlan.addToken, Table.get?_insert_ne _ hq.symm]

/-- **The last property under an element** decides what a filter asks for there. -/
theorem get?_filter_of_last {earlier later : List Property} (h : e.filter s = .ok filter)
    (hsplit : s.identifying e.entityType = earlier ++ p :: later)
    (hlast : ∀ q ∈ later, q.element ≠ p.element) :
    filter.get? p.element = some ((e.baselineValue? p.name).getD .null) := by
  obtain ⟨_, _, rfl⟩ := filter_eq_ok_iff.mp h
  rw [hsplit, List.foldl_append, List.foldl_cons, get?_foldl_addToken_of_ne hlast,
    WritePlan.addToken, Table.get?_insert_self]

end Entry

/-! ## Replaces and deletes -/

/-- **A replace finds what the delete would have found, if all that its filter asks for is
settled.** Whenever a replace can be made for an entry, its filter asks under each element for the
last identifying property there. For one that is settled it asks for the value that the entry had
before, null if it had none; for one that is not, it asks for the value that was generated for the
replace itself, which the entry has now. So if all identifying properties are settled, the filter
is the one with which the entry would have been deleted before. -/
theorem replace_filter_recorded {s : Schema} {changes changes' : ChangeSet}
    {source source' : ValueSource} {id : Nat} {e : Entry} {directive : Directive}
    (he : changes.entry? id = some e)
    (h : WritePlan.write s ⟨e.entityType, .replace⟩ id changes source
      = (.ok directive, changes', source')) :
    ∃ filter document e', directive = .replace filter document
      ∧ changes'.entry? id = some e'
      ∧ (∀ earlier p later, s.identifying e.entityType = earlier ++ p :: later →
        (∀ q ∈ later, q.element ≠ p.element) →
        (e.Settled s p →
          filter.get? p.element = some ((e.baselineValue? p.name).getD .null))
        ∧ (¬ e.Settled s p →
          ∃ q v, (q, v) ∈ source.draws false e (s.properties e.entityType.name)
            ∧ q.name = p.name ∧ e'.current.get? p.name = some v
            ∧ filter.get? p.element = some v))
      ∧ ((∀ p ∈ s.identifying e.entityType, e.Settled s p) →
        WritePlan.write s ⟨e.entityType, .delete⟩ id changes source
          = (.ok (.delete filter), changes, source)) := by
  obtain ⟨e', hfill, rfl, hdirective⟩ := WritePlan.write_eq_ok he DirectiveKind.noConfusion h
  obtain ⟨e'', filter, document, he', hfilter, _, rfl⟩ :=
    WritePlan.directive_replace rfl hdirective
  have hafter := ChangeSet.entry?_modify_self (fun _ => e') he
  cases hafter.symm.trans he'
  -- the filter is that of the entry after values were generated
  have htype := Entry.entityType_of_outline (ValueSource.outline_of_fill hfill)
  rw [WritePlan.filter_eq (by rw [htype])] at hfilter
  refine ⟨filter, document, e', rfl, hafter, ?_, ?_⟩
  · intro earlier p later hsplit hlast
    rw [← htype] at hsplit
    have hheld := Entry.get?_filter_of_last hfilter hsplit hlast
    constructor
    · intro hsettled
      rw [hheld, hsettled.baselineValue?_eq hfill]
    · intro hsettled
      obtain ⟨q, v, hdrawn, hname, hcurrent, hvalue⟩ :=
        Entry.exists_draw_of_not_settled hsettled hfill
      exact ⟨q, v, hdrawn, hname, hcurrent, by rw [hheld, hvalue, Option.getD_some]⟩
  · intro hsettled
    have hbefore : e.filter s = .ok filter :=
      Entry.filter_congr htype (fun p hp => (hsettled p hp).baselineValue?_eq hfill) hfilter
    have hplan : WritePlan.filter s ⟨e.entityType, .delete⟩ e = .ok filter := by
      rw [WritePlan.filter_eq rfl, hbefore]
    have hentry : changes.entry id = .ok e := by rw [ChangeSet.entry, he]
    have hdelete : WritePlan.directive s ⟨e.entityType, .delete⟩ changes id
        = .ok (.delete filter) :=
      Except.bind_eq_ok_iff.mpr ⟨e, hentry, Except.bind_eq_ok_iff.mpr ⟨filter, hplan, rfl⟩⟩
    rw [WritePlan.write, if_pos rfl, hdelete]

/-- A model of permits with a version that is renewed on every write. -/
def permitModel : Model where
  types := [
    { name := "Permit"
      properties := [⟨"Id", "Permit", .int32, none, false, false, none⟩,
        ⟨"Version", "Permit", .int32, none, false, true, some .onAddOrUpdate⟩] }]

/-- The schema of permits. -/
def permits : Schema where
  types := [
    { name := "Permit", collection := some "Permit", discriminatorValue := some "Permit"
      key := some ["Id"]
      properties := [⟨"Id", "Permit", .int32, some "_id", false, false, some .onAdd⟩,
        ⟨"Version", "Permit", .int32, none, false, true, some .onAddOrUpdate⟩] }]
  discriminatorElement := "_t"

/-- The type of permits. -/
def permit : EntityType := permits.types.headD default

/-- One permit, tracked as modified with the values that are known of it. -/
def modifiedPermit (values : Document) : ChangeSet :=
  (ChangeSet.track {} permit .modified values).2

/-- A permit that was tracked with its version is looked for with this version. -/
theorem replace_filter_recorded_permit :
    (WritePlan.write permits ⟨permit, .replace⟩ 0
        (modifiedPermit [("Id", .int 1), ("Version", .int 7)]) {}).1
        = .ok (.replace [("Version", .int 7), ("_id", .int 1)]
          [("Version", .int 1), ("_id", .int 1)])
      ∧ (WritePlan.write permits ⟨permit, .delete⟩ 0
        (modifiedPermit [("Id", .int 1), ("Version", .int 7)]) {}).1
        = .ok (.delete [("Version", .int 7), ("_id", .int 1)]) := by
  have hreplace : WritePlan.write permits ⟨permit, .replace⟩ 0
        (modifiedPermit [("Id", .int 1), ("Version", .int 7)]) {}
      = (.ok (.replace [("Version", .int 7), ("_id", .int 1)]
          [("Version", .int 1), ("_id", .int 1)]),
        (WritePlan.write permits ⟨permit, .replace⟩ 0
          (modifiedPermit [("Id", .int 1), ("Version", .int 7)]) {}).2) := rfl
  obtain ⟨filter, document, _, hdirective, _, _, hdelete⟩ := replace_filter_recorded
    (e := (modifiedPermit [("Id", .int 1), ("Version", .int 7)]).entries.get ⟨0, by decide⟩)
    rfl hreplace
  cases hdirective
  exact ⟨congrArg Prod.fst hreplace, congrArg Prod.fst (hdelete (by decide))⟩

/-- A permit that was tracked without its version is looked for with the version that it has just
got. A delete looks for a permit without a version, which is what is stored. -/
theorem fresh_version_asked_for :
    permitModel.finish (Convention.defaults .typeName) = .ok permits
      ∧ (WritePlan.write permits ⟨permit, .replace⟩ 0 (modifiedPermit [("Id", .int 1)]) {}).1
        = .ok (.replace [("Version", .int 1), ("_id", .int 1)]
          [("Version", .int 1), ("_id", .int 1)])
      ∧ (WritePlan.write permits ⟨permit, .delete⟩ 0 (modifiedPermit [("Id", .int 1)]) {}).1
        = .ok (.delete [("Version", .null), ("_id", .int 1)])
      ∧ Document.Matches [("_id", .int 1)] [("Version", .null), ("_id", .int 1)]
      ∧ ¬ Document.Matches [("_id", .int 1)] [("Version", .int 1), ("_id", .int 1)] := by
  exact ⟨rfl, rfl, rfl, by decide, by decide⟩

end Odm
