import Mathlib.Data.List.Pairwise
import Odm.Proofs.Save.Draws
import Odm.Proofs.Update.Edits
import Odm.Proofs.Update.Generated
import Odm.Proofs.Update.Recorded

/-!
# Keys that are generated

Attempts to save that one planner serves share its source, so their draws make one log. In it the
numbers for a property are strictly increasing, over entries, types and attempts and whether or not
the attempts succeed. An entry has what was drawn last for a name of its values. So keys differ as
long as all of them were drawn for one property.

Types inherit a key from the root of their hierarchy, and with it the property that it is drawn for.
But values are kept by name. A type can have another property of that name, and if this one is
*renewed*, that is generated on every write, then what is drawn for it takes the place of the key.
Otherwise a number that is there is left alone by all later saves.
-/

namespace Odm

/-! ## What a name is drawn for -/

namespace Entry

variable {e : Entry} {adding : Bool} {p : Property}

theorem IsSet.setValue_ne {name other : String} (h : e.IsSet name) (hne : name ≠ other)
    (v : Value) : (e.setValue other v).IsSet name := by
  obtain ⟨w, hw, hset⟩ := h
  exact ⟨w, (Table.get?_insert_ne _ hne _).trans hw, hset⟩

/-- Where nothing is added or a value is set, only what is renewed gets a new one. -/
theorem renewed_of_needsValue (h : adding = false ∨ e.IsSet p.name)
    (hneeds : e.needsValue adding p) : p.generation = .onAddOrUpdate := by
  rw [needsValue] at hneeds
  cases hgeneration : p.generation with
  | never => rw [hgeneration] at hneeds; cases hneeds
  | onAddOrUpdate => rfl
  | onAdd =>
    rw [hgeneration] at hneeds
    rcases h with rfl | ⟨v, hv, hset⟩
    · cases hneeds
    · simp [hv, hset] at hneeds

/-- What is generated and gets no value now has one, unless nothing is added. -/
theorem isSet_of_idle (hgenerated : p.generation ≠ .never) (h : ¬ e.needsValue adding p) :
    adding = false ∨ e.IsSet p.name := by
  cases adding with
  | false => exact .inl rfl
  | true =>
    refine .inr (isSet_of_not_needsValue ?_ h)
    cases hgeneration : p.generation with
    | never => exact absurd hgeneration hgenerated
    | onAdd => exact .inr ⟨hgeneration, rfl⟩
    | onAddOrUpdate => exact .inl hgeneration

end Entry

namespace ValueSource

variable {adding : Bool} {name : String} {p : Property} {properties : List Property}

/-- Where a value is set, only what is renewed is drawn for its name, provided that this sets it
again. -/
theorem renewed_of_mem_draws :
    ∀ {source : ValueSource} {e : Entry}, adding = false ∨ e.IsSet name →
      (∀ draw ∈ source.draws adding e properties, draw.1.name = name →
        draw.1.generation = .onAddOrUpdate → draw.2.isUnset = false) →
      ∀ draw ∈ source.draws adding e properties, draw.1.name = name →
        draw.1.generation = .onAddOrUpdate := by
  induction properties with
  | nil => exact fun _ _ => nofun
  | cons q rest ih =>
    intro source e h hset draw hdraw hname
    rcases draws_cons adding source e q rest with ⟨hneeds, v, source', hdraws⟩ | hnone | ⟨_, hsame⟩
    · rw [hdraws] at hset hdraw
      obtain ⟨hv, hlater⟩ := List.forall_mem_cons.mp hset
      rcases List.mem_cons.mp hdraw with rfl | hdraw
      · subst hname
        exact Entry.renewed_of_needsValue h hneeds
      · refine ih ?_ hlater draw hdraw hname
        -- a value that is drawn for the name is set, so the name stays so
        rcases h with h | h
        · exact .inl h
        · by_cases hq : q.name = name
          · subst hq
            have hrenewed := Entry.renewed_of_needsValue (.inr h) hneeds
            exact .inr (Entry.isSet_setValue (hv rfl hrenewed) e _)
          · exact .inr (h.setValue_ne (Ne.symm hq) v)
    · rw [hnone] at hdraw
      cases hdraw
    · rw [hsame] at hset hdraw
      exact ih h hset draw hdraw hname

/-- Nothing is drawn for a name whose value is set, if there is no property of that name that is
renewed. -/
theorem name_ne_of_mem_draws {source : ValueSource} {e : Entry} (h : e.IsSet name)
    (hkept : ∀ q ∈ properties, q.name = name → q.generation ≠ .onAddOrUpdate) :
    ∀ draw ∈ source.draws adding e properties, draw.1.name ≠ name := by
  intro draw hdraw hname
  refine hkept _ (mem_of_mem_draws hdraw) hname (renewed_of_mem_draws (.inr h) ?_ draw hdraw hname)
  intro other hother hsame hrenewed
  exact absurd hrenewed (hkept _ (mem_of_mem_draws hother) hsame)

/-- **A name is drawn for one property**, if that is the first of the name and no other one is
renewed. For then other properties of the name find its value, or are not generated either. -/
theorem key_of_mem_draws (hgenerated : p.generation ≠ .never) :
    ∀ {source : ValueSource} {e : Entry}, properties.find? (·.name = p.name) = some p →
      (∀ q ∈ properties, q.name = p.name → q.generation = .onAddOrUpdate → q.key = p.key) →
      (∀ draw ∈ source.draws adding e properties, draw.1.key = p.key → draw.2.isUnset = false) →
      ∀ draw ∈ source.draws adding e properties, draw.1.name = p.name → draw.1.key = p.key := by
  induction properties with
  | nil => exact nofun
  | cons q rest ih =>
    intro source e hfirst honly hset draw hdraw hname
    obtain ⟨-, hrest⟩ := List.forall_mem_cons.mp honly
    -- what is drawn once the property had its turn is drawn for what is renewed
    have hafter : ∀ {source : ValueSource} {e : Entry}, adding = false ∨ e.IsSet p.name →
        (∀ draw ∈ source.draws adding e rest, draw.1.key = p.key → draw.2.isUnset = false) →
        draw ∈ source.draws adding e rest → draw.1.key = p.key := by
      intro source e h hset hdraw
      refine hrest _ (mem_of_mem_draws hdraw) hname (renewed_of_mem_draws h ?_ draw hdraw hname)
      intro other hother hsame hrenewed
      exact hset other hother (hrest _ (mem_of_mem_draws hother) hsame hrenewed)
    rcases draws_cons adding source e q rest with
      ⟨hneeds, v, source', hdraws⟩ | hnone | ⟨hneeds, hsame⟩
    · rw [hdraws] at hset hdraw
      obtain ⟨hv, hlater⟩ := List.forall_mem_cons.mp hset
      by_cases hq : q.name = p.name
      · rw [List.find?_cons_of_pos (by simpa using hq)] at hfirst
        cases hfirst
        rcases List.mem_cons.mp hdraw with rfl | hdraw
        · rfl
        · exact hafter (.inr (Entry.isSet_setValue (hv rfl) e _)) hlater hdraw
      · rw [List.find?_cons_of_neg (by simpa using hq)] at hfirst
        rcases List.mem_cons.mp hdraw with rfl | hdraw
        · exact absurd hname hq
        · exact ih hfirst hrest hlater draw hdraw hname
    · rw [hnone] at hdraw
      cases hdraw
    · rw [hsame] at hset hdraw
      by_cases hq : q.name = p.name
      · rw [List.find?_cons_of_pos (by simpa using hq)] at hfirst
        cases hfirst
        exact hafter (Entry.isSet_of_idle hgenerated hneeds) hset hdraw
      · rw [List.find?_cons_of_neg (by simpa using hq)] at hfirst
        exact ih hfirst hrest hset draw hdraw hname

end ValueSource

namespace Schema

/-- A name has a property in a type that is generated on every write. -/
def Renews (s : Schema) (typeName name : String) : Prop :=
  ∃ q ∈ s.properties typeName, q.name = name ∧ q.generation = .onAddOrUpdate

instance (s : Schema) (typeName name : String) : Decidable (s.Renews typeName name) :=
  inferInstanceAs (Decidable (∃ q ∈ s.properties typeName,
    q.name = name ∧ q.generation = .onAddOrUpdate))

/-- The values of a property are numbers that are generated. Whatever else has its declaring type
and its name is of an integer type as well. -/
structure Numbers (s : Schema) (p : Property) : Prop where
  generated : p.generation ≠ .never
  integer : ∀ t ∈ s.types, ∀ q ∈ t.properties, q.key = p.key →
    q.type.unwrap.generatedBits?.isSome

variable {s : Schema} {p : Property} {typeName : String}

/-- A key comes before all other properties of its name. -/
theorem find?_properties_of_key (h : p ∈ s.keyProperties typeName) :
    (s.properties typeName).find? (·.name = p.name) = some p := by
  rw [keyProperties] at h
  cases hroot : s.root? typeName with
  | none => rw [hroot] at h; cases h
  | some root =>
    rw [hroot] at h
    obtain ⟨name, _, hp⟩ := List.mem_filterMap.mp h
    have hname : p.name = name := by simpa using List.find?_some hp
    obtain ⟨derived, hchain⟩ := List.getLast?_eq_some_iff.mp hroot
    rw [EntityType.property?, ← hname] at hp
    rw [Catalog.properties, hchain, List.reverse_append, List.reverse_singleton,
      List.singleton_append, List.flatMap_cons, List.find?_append, hp, Option.some_or]

theorem exists_type_of_mem_properties (h : p ∈ s.properties typeName) :
    ∃ t ∈ s.types, p ∈ t.properties := by
  obtain ⟨t, ht, hp⟩ := List.mem_flatMap.mp h
  exact ⟨t, Catalog.find?_mem (Catalog.find?_of_mem_climb (List.mem_reverse.mp ht)), hp⟩

end Schema

/-! ## Values that are left alone -/

namespace ChangeSet

variable {s : Schema} {id : Nat} {name : String} {v : Value} {changes : ChangeSet}

/-- An entry has a value, and its type has nothing of that name that is renewed. -/
def Holds (s : Schema) (id : Nat) (name : String) (v : Value) (changes : ChangeSet) : Prop :=
  ∃ e, changes.entry? id = some e ∧ e.current.get? name = some v
    ∧ ¬ s.Renews e.entityType.name name

theorem Holds.modify (h : changes.Holds s id name v) {other : Nat} {f : Entry → Entry}
    (hf : ∀ e, changes.entry? id = some e → other = id →
      (f e).entityType = e.entityType ∧ (f e).current.get? name = e.current.get? name) :
    (changes.modify other f).Holds s id name v := by
  obtain ⟨e, he, hget, hkept⟩ := h
  by_cases hother : other = id
  · obtain ⟨htype, hsame⟩ := hf e he hother
    subst hother
    refine ⟨f e, entry?_modify_self f he, hsame.trans hget, ?_⟩
    rwa [htype]
  · exact ⟨e, (entry?_modify_ne f hother).trans he, hget, hkept⟩

theorem Holds.append (h : changes.Holds s id name v) (t : EntityType) (state : EntityState)
    (values : Document) (owner : Option Nat) :
    (changes.append t state values owner).Holds s id name v := by
  obtain ⟨e, he, hkept⟩ := h
  have hlt : id < changes.entries.length := (List.getElem?_eq_some_iff.mp he).1
  exact ⟨e, (List.getElem?_append_left hlt).trans he, hkept⟩

theorem Holds.acceptAll (h : changes.Holds s id name v) : changes.acceptAll.Holds s id name v := by
  obtain ⟨e, he, hkept⟩ := h
  exact ⟨e.accept, entry?_acceptAll he, hkept⟩

/-- **Edits leave a value alone** but for those of the value itself. -/
theorem Holds.edit (h : changes.Holds s id name v) {edit : Edit}
    (hedit : ∀ w, edit ≠ .setValue id name w) : (changes.edit edit).Holds s id name v := by
  cases edit with
  | track t state values => exact h.append t state values none
  | trackOwned owner t state values =>
    rw [ChangeSet.edit, trackOwned, ChangeSet.entry]
    cases changes.entry? owner with
    | none => exact h
    | some e => exact h.append t state values (some owner)
  | setState other state => exact h.modify fun _ _ _ => ⟨rfl, rfl⟩
  | setValue other property w =>
    refine h.modify fun e _ hother => ⟨rfl, ?_⟩
    -- the edit sets another value of the entry
    have hname : name ≠ property := by
      rintro rfl
      exact hedit w (by rw [hother])
    exact Table.get?_insert_ne _ hname _
  | accept other => exact h.modify fun _ _ _ => ⟨rfl, rfl⟩
  | acceptAll => exact h.acceptAll

/-- A turn draws nothing for the value, at whichever entry it is. -/
theorem Holds.turn {unit unit' : UnitOfWork} (h : unit.changes.Holds s id name v)
    (hv : v.isUnset = false) {other : Nat} (hturn : unit.TakesTurn s other unit') :
    unit'.changes.Holds s id name v := by
  rw [hturn.changes]
  have hentry := h
  -- a turn at another entry does not change this one
  obtain ⟨e, he, hget, hkept⟩ := hentry
  refine h.modify ?_
  rintro e' he' rfl
  cases he.symm.trans he'
  refine ⟨Entry.entityType_of_outline (e.outline_getting _), ?_⟩
  rcases e.get?_getting (unit.drawn s other) name with ⟨draw, hdraw, hname, _⟩ | ⟨_, hsame⟩
  · -- a draw for the name would need the value to be unset, or renewed by a property of the name
    obtain ⟨e₁, adding, he₁, hdrawn⟩ :=
      UnitOfWork.exists_entry_of_drawn (List.ne_nil_of_mem hdraw)
    cases he.symm.trans he₁
    rw [hdrawn] at hdraw
    refine absurd hname (ValueSource.name_ne_of_mem_draws ⟨v, hget, hv⟩ ?_ draw hdraw)
    exact fun q hq hqname hrenewed => hkept ⟨q, hq, hqname, hrenewed⟩
  · exact hsame

theorem Holds.directives (hv : v.isUnset = false) (ids : List Nat) :
    ∀ {unit : UnitOfWork}, unit.changes.Holds s id name v →
      (unit.directives s ids).2.changes.Holds s id name v := by
  induction ids with
  | nil => exact fun h => h
  | cons first rest ih =>
    intro unit h
    obtain ⟨unit', hturn, ⟨hunit, _⟩ | ⟨hunit, _⟩⟩ := unit.directives_cons s first rest
    · rw [hunit]
      exact h.turn hv hturn
    · rw [hunit]
      exact ih (h.turn hv hturn)

/-- **Saves leave a value alone**, however they end. -/
theorem Holds.saveOn {σ : Type} [DocumentStore σ] (db : Database) (way : Way σ)
    (unit : UnitOfWork) (store : σ) (h : unit.changes.Holds db.schema id name v)
    (hv : v.isUnset = false) :
    (db.saveOn way unit store).2.1.changes.Holds db.schema id name v := by
  have hprepared := Holds.directives hv (unit.rootIds db.schema) h
  rw [← db.prepare_snd unit] at hprepared
  rcases db.saveOn_unit way unit store with hunit | hunit
  · rw [hunit]
    exact hprepared
  · rw [hunit]
    exact hprepared.acceptAll

/-- What a change set can come to by edits and attempts to save, if the value of an entry is not
edited. -/
inductive Later (σ : Type) [DocumentStore σ] (s : Schema) (id : Nat) (name : String)
    (first : ChangeSet) : ChangeSet → Prop where
  | refl : Later σ s id name first first
  | edit {changes : ChangeSet} {edit : Edit} : Later σ s id name first changes →
      (∀ w, edit ≠ .setValue id name w) → Later σ s id name first (changes.edit edit)
  | save {changes : ChangeSet} (accepts : Bool) (way : Way σ) (planner : Planner) (store : σ) :
      Later σ s id name first changes → Later σ s id name first
        (Database.saveOn ⟨s, accepts⟩ way ⟨changes, planner⟩ store).2.1.changes

theorem Later.holds {σ : Type} [DocumentStore σ] {first : ChangeSet}
    (h : Later σ s id name first changes) (hv : v.isUnset = false)
    (hfirst : first.Holds s id name v) : changes.Holds s id name v := by
  induction h with
  | refl => exact hfirst
  | edit _ hedit ih => exact ih.edit hedit
  | @save changes accepts way planner store _ ih =>
    exact Holds.saveOn ⟨s, accepts⟩ way ⟨changes, planner⟩ store ih hv

end ChangeSet

/-! ## Attempts to save -/

/-- An attempt to save a unit of work, which may fail. -/
structure SaveAttempt (σ : Type) where
  unit : UnitOfWork
  way : Way σ
  store : σ
  /-- Whether the changes are accepted if it succeeds. -/
  accepts : Bool

namespace SaveAttempt

open ValueSource

variable {σ : Type} {s : Schema} {attempt : SaveAttempt σ} {attempts : List (SaveAttempt σ)}

/-- The draws of the attempt. -/
def log (s : Schema) (attempt : SaveAttempt σ) : List (Nat × Property × Value) :=
  attempt.unit.drawnInSave s

/-- The draws of an attempt are in the log of all of them. -/
theorem mem_logs (hattempt : attempt ∈ attempts) {draw : Nat × Property × Value}
    (hdraw : draw ∈ attempt.log s) : draw.2 ∈ (attempts.flatMap (·.log s)).map Prod.snd :=
  List.mem_map_of_mem (List.mem_flatMap.mpr ⟨attempt, hattempt, hdraw⟩)

variable [DocumentStore σ] {id : Nat} {e : Entry} {name : String} {a : Int} {p : Property}

/-- The unit of work after the attempt. -/
def after (s : Schema) (attempt : SaveAttempt σ) : UnitOfWork :=
  (Database.saveOn ⟨s, attempt.accepts⟩ attempt.way attempt.unit attempt.store).2.1

/-- Attempts that one planner serves, one after the other. Their change sets and their stores need
not have anything to do with each other. -/
def Successive (s : Schema) : Planner → List (SaveAttempt σ) → Prop
  | _, [] => True
  | planner, attempt :: rest =>
    attempt.unit.planner = planner ∧ Successive s (attempt.after s).planner rest

/-- The attempt gave an entry a number that it did not have. -/
structure Gives (s : Schema) (attempt : SaveAttempt σ) (id : Nat) (e : Entry) (name : String)
    (a : Int) : Prop where
  entry : attempt.unit.changes.entry? id = some e
  lacked : e.current.get? name ≠ some (.int a)
  given : ∃ e', ChangeSet.entry? (attempt.after s).changes id = some e'
    ∧ e'.current.get? name = some (.int a)

/-- The attempt gave an entry a key, and no other property of its name is renewed in the type of the
entry. -/
def GivesKey (s : Schema) (attempt : SaveAttempt σ) (p : Property) (id : Nat) (a : Int) : Prop :=
  ∃ e, attempt.Gives s id e p.name a ∧ p ∈ s.keyProperties e.entityType.name
    ∧ ∀ q ∈ s.properties e.entityType.name, q.name = p.name →
      q.generation = .onAddOrUpdate → q.key = p.key

/-! ## What attempts draw -/

/-- **The draws of all attempts are one log of the source.** -/
theorem drawn_of_successive : ∀ {planner : Planner} {attempts : List (SaveAttempt σ)},
    Successive s planner attempts →
      ∃ source', Drawn planner.source ((attempts.flatMap (·.log s)).map Prod.snd) source'
  | planner, [], _ => ⟨planner.source, .nil⟩
  | _, attempt :: rest, ⟨rfl, hrest⟩ => by
    obtain ⟨source', hlater⟩ := drawn_of_successive hrest
    -- the first attempt ends where the others start
    have hfirst := Database.drawn_saveOn ⟨s, attempt.accepts⟩ attempt.way attempt.unit attempt.store
    rw [List.flatMap_cons, List.map_append]
    exact ⟨source', hfirst.append hlater⟩

/-- A number that is given was drawn. -/
theorem Gives.exists_draw (h : attempt.Gives s id e name a) :
    ∃ r ∈ s.properties e.entityType.name, r.name = name ∧ (id, r, .int a) ∈ attempt.log s := by
  obtain ⟨e₁, he₁, _, hcurrent⟩ :=
    Database.entry?_saveOn ⟨s, attempt.accepts⟩ attempt.way attempt.store h.entry
  obtain ⟨e₂, he₂, hgiven⟩ := h.given
  cases he₁.symm.trans he₂
  rw [hcurrent] at hgiven
  rcases e.get?_getting (UnitOfWork.ofEntry id (attempt.log s)) name with
    ⟨⟨r, v⟩, hdraw, hname, hv⟩ | ⟨_, hsame⟩
  · cases hv.symm.trans hgiven
    have hlogged := UnitOfWork.mem_ofEntry.mp hdraw
    obtain ⟨e₀, he₀, hr⟩ := UnitOfWork.mem_properties_of_mem hlogged
    cases h.entry.symm.trans he₀
    exact ⟨r, hr, hname, hlogged⟩
  · exact absurd (hsame.symm.trans hgiven) h.lacked

/-- **A key that is given was drawn for the key property**, if this sets it at once. -/
theorem GivesKey.exists_draw (h : attempt.GivesKey s p id a) (hgenerated : p.generation ≠ .never)
    (hset : ∀ draw ∈ attempt.log s, draw.2.1.key = p.key → draw.2.2.isUnset = false) :
    ∃ r, r.key = p.key ∧ (id, r, .int a) ∈ attempt.log s := by
  obtain ⟨e, hgives, hkey, honly⟩ := h
  obtain ⟨r, _, hname, hlogged⟩ := hgives.exists_draw
  obtain ⟨e₀, _, _, _, he₀, hdraw, hall⟩ := UnitOfWork.exists_draws_of_mem hlogged
  cases hgives.entry.symm.trans he₀
  have hfirst := Schema.find?_properties_of_key hkey
  refine ⟨r, key_of_mem_draws hgenerated hfirst honly ?_ _ hdraw hname, hlogged⟩
  intro draw hother
  exact hset _ (hall draw hother)

section Log

variable {entropy : Entropy}
  (hsuccessive : Successive s { source := { entropy := entropy } } attempts)

include hsuccessive

/-- Numbers are set once they are drawn. -/
theorem isUnset_of_mem_log (hroom : (attempts.flatMap (·.log s)).length < 2 ^ 63)
    (hattempt : attempt ∈ attempts) {draw : Nat × Property × Value} (hdraw : draw ∈ attempt.log s)
    (ha : draw.2.2 = .int a) : draw.2.2.isUnset = false := by
  obtain ⟨source', hdrawn⟩ := drawn_of_successive hsuccessive
  have hpos : 0 < a :=
    hdrawn.pos_of_int (by rwa [List.length_map]) (mem_logs hattempt hdraw) ha
  rw [ha]
  exact decide_eq_false (by omega)

/-- What is drawn for a property whose values are numbers is a number. -/
theorem exists_int_of_mem_log (hnumbers : s.Numbers p) (hattempt : attempt ∈ attempts)
    {draw : Nat × Property × Value} (hdraw : draw ∈ attempt.log s) (hkey : draw.2.1.key = p.key) :
    ∃ a, draw.2.2 = .int a := by
  obtain ⟨source', hdrawn⟩ := drawn_of_successive hsuccessive
  refine hdrawn.exists_int ?_ (mem_logs hattempt hdraw) hkey
  -- whatever was drawn for the key, in any of the attempts, was drawn for a property of a type
  intro other hother hsame
  obtain ⟨logged, hlogged, rfl⟩ := List.mem_map.mp hother
  obtain ⟨attempt', _, hlogged⟩ := List.mem_flatMap.mp hlogged
  obtain ⟨e, _, hq⟩ := UnitOfWork.mem_properties_of_mem hlogged
  obtain ⟨t, ht, hq⟩ := Schema.exists_type_of_mem_properties hq
  exact hnumbers.integer t ht _ hq hsame

/-- **Keys that are given were drawn for their properties.** -/
theorem GivesKey.drawn (h : attempt.GivesKey s p id a) (hnumbers : s.Numbers p)
    (hroom : (attempts.flatMap (·.log s)).length < 2 ^ 63) (hattempt : attempt ∈ attempts) :
    ∃ r, r.key = p.key ∧ (id, r, .int a) ∈ attempt.log s := by
  refine h.exists_draw hnumbers.generated ?_
  intro draw hdraw hkey
  obtain ⟨b, hb⟩ := exists_int_of_mem_log hsuccessive hnumbers hattempt hdraw hkey
  exact isUnset_of_mem_log hsuccessive hroom hattempt hdraw hb

/-- **For each property what is drawn is strictly increasing.** -/
theorem pairwise_log (hroom : (attempts.flatMap (·.log s)).length < 2 ^ 63) :
    ((attempts.flatMap (·.log s)).map Prod.snd).Pairwise Below := by
  obtain ⟨source', hdrawn⟩ := drawn_of_successive hsuccessive
  exact hdrawn.pairwise_below (by rwa [List.length_map])

end Log

end SaveAttempt

/-! ## How draws of attempts compare -/

namespace SaveAttempt

open ValueSource

variable {σ : Type} {s : Schema} {attempts : List (SaveAttempt σ)}

/-- Draws for one property are not the same number. -/
def Apart (draw other : Nat × Property × Value) : Prop :=
  draw.2.1.key = other.2.1.key → ∀ a b, draw.2.2 = .int a → other.2.2 = .int b → a ≠ b

theorem apart_of_below {draw other : Nat × Property × Value} (h : Below draw.2 other.2) :
    Apart draw other := fun hkey a b ha hb => Int.ne_of_lt (h hkey a b ha hb)

theorem Apart.symm {draw other : Nat × Property × Value} (h : Apart draw other) :
    Apart other draw := fun hkey a b ha hb => (h hkey.symm b a hb ha).symm

/-- **Draws of different attempts, or for different entries, are apart.** -/
theorem apart_of_mem_log (h : ((attempts.flatMap (·.log s)).map Prod.snd).Pairwise Below)
    {i j : Nat} {first second : SaveAttempt σ} (hi : attempts[i]? = some first)
    (hj : attempts[j]? = some second) {draw other : Nat × Property × Value}
    (hdraw : draw ∈ first.log s) (hother : other ∈ second.log s)
    (hne : (i, draw.1) ≠ (j, other.1)) : Apart draw other := by
  -- the order of all draws is one within each attempt and one between any two of them
  obtain ⟨hwithin, hbetween⟩ := List.pairwise_flatMap.mp
    ((List.pairwise_map.mp h).imp fun hbelow => apart_of_below hbelow)
  have hordered : ∀ {i j : Nat} {first second : SaveAttempt σ}, attempts[i]? = some first →
      attempts[j]? = some second → i < j → ∀ draw ∈ first.log s, ∀ other ∈ second.log s,
        Apart draw other := by
    intro i j first second hi hj hij
    obtain ⟨hilt, rfl⟩ := List.getElem?_eq_some_iff.mp hi
    obtain ⟨hjlt, rfl⟩ := List.getElem?_eq_some_iff.mp hj
    exact List.pairwise_iff_getElem.mp hbetween i j hilt hjlt hij
  -- whichever attempt is the earlier one, draws of the earlier are below those of the later
  rcases Nat.lt_trichotomy i j with hij | rfl | hji
  · exact hordered hi hj hij draw hdraw other hother
  · -- the attempt is the same, so that the entries are different
    cases hi.symm.trans hj
    have : Std.Symm (Apart : Nat × Property × Value → Nat × Property × Value → Prop) :=
      ⟨fun _ _ happart => happart.symm⟩
    refine (hwithin first (List.mem_of_getElem? hi)).forall hdraw hother ?_
    rintro rfl
    exact hne rfl
  · exact (hordered hj hi hji other hother draw hdraw).symm

end SaveAttempt

open ValueSource

/-- **Generated numbers are not repeated, and they last.** Let less than `2 ^ 63` values be drawn in
attempts to save that one planner serves, whatever their change sets are and however they end. Then
the numbers for each declaring type and name are strictly increasing, and all numbers that entries
get are among them. So no two entries get the same key, be it in one attempt or in different ones,
if it comes from one property for both: this is a key property of their types, and no other property
of its name is renewed there. And a number that an entry got stays through all edits of other values
and all later saves, if its type has no property of that name that is renewed. -/
theorem generated_keys_unrepeated {σ : Type} [DocumentStore σ] {s : Schema} {entropy : Entropy}
    {attempts : List (SaveAttempt σ)}
    (hsuccessive : SaveAttempt.Successive s { source := { entropy := entropy } } attempts)
    (hroom : (attempts.flatMap (·.log s)).length < 2 ^ 63) :
    ((attempts.flatMap (·.log s)).map Prod.snd).Pairwise Below
    ∧ (∀ attempt ∈ attempts, ∀ id e name a, attempt.Gives s id e name a →
      ∃ r ∈ s.properties e.entityType.name, r.name = name ∧ (id, r, .int a) ∈ attempt.log s)
    ∧ (∀ (i j : Nat) (first second : SaveAttempt σ), attempts[i]? = some first →
      attempts[j]? = some second → ∀ p id id' a b, (i, id) ≠ (j, id') → s.Numbers p →
        first.GivesKey s p id a → second.GivesKey s p id' b → a ≠ b)
    ∧ ∀ attempt ∈ attempts, ∀ id e name a, attempt.Gives s id e name a →
      ¬ s.Renews e.entityType.name name →
        ∀ changes, ChangeSet.Later σ s id name (attempt.after s).changes changes →
          ∃ e', changes.entry? id = some e' ∧ e'.current.get? name = some (.int a) := by
  have hbelow := SaveAttempt.pairwise_log hsuccessive hroom
  refine ⟨hbelow, fun attempt _ id e name a hgives => hgives.exists_draw, ?_, ?_⟩
  · -- both keys were drawn, and by draws that are apart
    intro i j first second hi hj p id id' a b hne hnumbers hfirst hsecond
    obtain ⟨r, hr, hdraw⟩ :=
      hfirst.drawn hsuccessive hnumbers hroom (List.mem_of_getElem? hi)
    obtain ⟨r', hr', hother⟩ :=
      hsecond.drawn hsuccessive hnumbers hroom (List.mem_of_getElem? hj)
    have happart := SaveAttempt.apart_of_mem_log hbelow hi hj hdraw hother hne
    exact happart (hr.trans hr'.symm) a b rfl rfl
  · -- the number was drawn, so it is set, and nothing later sets it again
    intro attempt hattempt id e name a hgives hkept changes hlater
    obtain ⟨r, _, _, hdraw⟩ := hgives.exists_draw
    have hset := SaveAttempt.isUnset_of_mem_log hsuccessive hroom hattempt hdraw rfl
    obtain ⟨e₁, he₁, htype, _⟩ :=
      Database.entry?_saveOn ⟨s, attempt.accepts⟩ attempt.way attempt.store hgives.entry
    obtain ⟨e₂, he₂, hgiven⟩ := hgives.given
    cases he₁.symm.trans he₂
    obtain ⟨e', he', hget, _⟩ := hlater.holds hset ⟨e₁, he₂, hgiven, by rwa [htype]⟩
    exact ⟨e', he', hget⟩

/-! ## Tickets and passes -/

/-- A model of tickets, some of which are passes. These have properties of their own. -/
def passModel (declared : List Property) : Model where
  types := [
    { name := "Pass", base := some "Ticket", properties := declared },
    { name := "Ticket", properties := [⟨"Id", "Ticket", .int32, none, false, false, none⟩] }]

/-- The key of tickets. -/
def ticketId : Property := ⟨"Id", "Ticket", .int32, some "_id", false, false, some .onAdd⟩

/-- A property that passes can have, of the name of their key. It is renewed. -/
def passId : Property := ⟨"Id", "Pass", .int32, none, false, false, some .onAddOrUpdate⟩

def ticket : EntityType where
  name := "Ticket"
  collection := some "Ticket"
  discriminatorValue := some "Ticket"
  key := some ["Id"]
  properties := [ticketId]
  below := ["Pass"]

def pass (declared : List Property) : EntityType where
  name := "Pass"
  base := some "Ticket"
  discriminatorValue := some "Pass"
  properties := declared

/-- The schema of tickets. -/
def tickets (declared : List Property) : Schema where
  types := [pass declared, ticket]
  discriminatorElement := "_t"

/-- A ticket that is sold, with no key yet. -/
def sold (id : Nat) (t : EntityType) : Entry := ⟨id, t, .added, [], [], none⟩

/-- A planner that has made no plans and drawn no values. -/
def newPlanner : Planner := ⟨[], {}, Planner.sound_nil⟩

/-- Tickets are saved to a store that has one with the key one. -/
def sale (unit : UnitOfWork) : SaveAttempt MemoryStore :=
  ⟨unit, .inOrder, ⟨[("Ticket", [[("_id", .int 1)]])]⟩, true⟩

/-- A ticket and a pass are sold. -/
def mixedSale (declared : List Property) : SaveAttempt MemoryStore :=
  sale ⟨⟨[sold 0 ticket, sold 1 (pass declared)]⟩, newPlanner⟩

/-- Then one more pass is. -/
def nextSale : SaveAttempt MemoryStore :=
  sale ⟨⟨[sold 0 (pass [])]⟩, ((mixedSale []).after (tickets [])).planner⟩

/-- A pass is sold alone. -/
def passSale (declared : List Property) : SaveAttempt MemoryStore :=
  sale ⟨⟨[sold 0 (pass declared)]⟩, newPlanner⟩

/-- Passes get keys like tickets do. The first one keeps its key, although it could not be saved. -/
theorem generated_keys_unrepeated_tickets :
    SaveAttempt.Successive (tickets []) newPlanner [mixedSale [], nextSale]
      ∧ ([mixedSale [], nextSale].flatMap (·.log (tickets []))).length < 2 ^ 63
      ∧ (tickets []).Numbers ticketId
      ∧ (mixedSale []).GivesKey (tickets []) ticketId 1 2
      ∧ nextSale.GivesKey (tickets []) ticketId 0 3
      ∧ (2 : Int) ≠ 3
      ∧ ∃ e, ChangeSet.entry? (((mixedSale []).after (tickets [])).changes.edit
          (.setState 1 .modified)) 1 = some e ∧ e.current.get? "Id" = some (.int 2) := by
  -- three numbers are drawn: for the two passes, and for the ticket that is sold with the first
  have hsuccessive : SaveAttempt.Successive (tickets []) { source := { entropy := {} } }
      [mixedSale [], nextSale] := ⟨rfl, rfl, trivial⟩
  have hroom : ([mixedSale [], nextSale].flatMap (·.log (tickets []))).length < 2 ^ 63 := by
    rw [show ([mixedSale [], nextSale].flatMap (·.log (tickets []))).length = 3 from rfl]
    decide
  have hnumbers : (tickets []).Numbers ticketId := ⟨by decide, by decide⟩
  have hgives : (mixedSale []).Gives (tickets []) 1 (sold 1 (pass [])) "Id" 2 :=
    ⟨rfl, by decide, _, rfl, rfl⟩
  have hfirst : (mixedSale []).GivesKey (tickets []) ticketId 1 2 :=
    ⟨sold 1 (pass []), hgives, by decide, by decide⟩
  have hsecond : nextSale.GivesKey (tickets []) ticketId 0 3 :=
    ⟨sold 0 (pass []), ⟨rfl, by decide, _, rfl, rfl⟩, by decide, by decide⟩
  obtain ⟨_, _, hkeys, hlasts⟩ := generated_keys_unrepeated hsuccessive hroom
  refine ⟨hsuccessive, hroom, hnumbers, hfirst, hsecond,
    hkeys 0 1 _ _ rfl rfl ticketId 1 0 2 3 (by decide) hnumbers hfirst hsecond, ?_⟩
  exact hlasts _ List.mem_cons_self 1 _ "Id" 2 hgives (by decide) _ (.edit .refl nofun)

/-- **Generated keys may be repeated, and need not last**, where passes have another property of the
name of their key and this one is renewed. Tickets and passes have the same key property, but a
ticket and a pass that are added without a key both get the first number. And a pass that cannot be
saved with the number that was drawn for the key gets another one at the next attempt. -/
theorem redeclared_key_repeats :
    (passModel [passId]).finish (Convention.defaults .typeName) = .ok (tickets [passId])
      ∧ (tickets [passId]).keyProperties "Ticket" = [ticketId]
      ∧ (tickets [passId]).keyProperties "Pass" = [ticketId]
      ∧ (mixedSale [passId]).Gives (tickets [passId]) 0 (sold 0 ticket) "Id" 1
      ∧ (mixedSale [passId]).Gives (tickets [passId]) 1 (sold 1 (pass [passId])) "Id" 1
      ∧ (Database.save ⟨tickets [passId], true⟩ (passSale [passId]).unit
          (passSale [passId]).store).1
        = .error (.store (.bulkWrite "Ticket" "duplicate key 1"))
      ∧ (passSale [passId]).Gives (tickets [passId]) 0 (sold 0 (pass [passId])) "Id" 1
      ∧ (0, ticketId, .int 1) ∈ (passSale [passId]).log (tickets [passId])
      ∧ ∃ e, ChangeSet.entry? ((sale ((passSale [passId]).after (tickets [passId]))).after
          (tickets [passId])).changes 0 = some e ∧ e.current.get? "Id" = some (.int 2) := by
  refine ⟨rfl, by decide, by decide, ⟨rfl, by decide, _, rfl, rfl⟩, ⟨rfl, by decide, _, rfl, rfl⟩,
    rfl, ⟨rfl, by decide, _, rfl, rfl⟩, List.mem_cons_self, _, rfl, rfl⟩

end Odm
