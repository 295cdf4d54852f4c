import Odm.Proofs.Save.Rediscovery
import Odm.Proofs.Update.Sequence

/-!
# What saves draw

A save draws values at the turns of its roots, and so does a save that fails, up to the turn that it
failed at. The log of a save has all its draws with the entries they are for. It is a log of the
source of the selector: the draws of one save continue where those of the save before it stopped,
whatever change sets the two have.

An entry has what was drawn for it, and no other value of it is changed. That does not depend on how
the save ends, because nothing is taken back and accepting changes keeps current values.
-/

namespace Odm

/-- An entry with draws, the later ones in place of earlier ones of their names. -/
def Entry.getting (e : Entry) (drawn : List (Property × Value)) : Entry :=
  drawn.foldl (fun e draw => e.setValue draw.1.name draw.2) e

theorem Entry.getting_append (e : Entry) (drawn later : List (Property × Value)) :
    e.getting (drawn ++ later) = (e.getting drawn).getting later := List.foldl_append

theorem Entry.outline_getting (e : Entry) (drawn : List (Property × Value)) :
    (e.getting drawn).outline = e.outline := by
  induction drawn generalizing e with
  | nil => rfl
  | cons draw rest ih => exact ih (e.setValue draw.1.name draw.2)

/-- A value is the one drawn last for its name, or what it was if there is none. -/
theorem Entry.get?_getting (e : Entry) (drawn : List (Property × Value)) (name : String) :
    (∃ draw ∈ drawn, draw.1.name = name ∧ (e.getting drawn).current.get? name = some draw.2)
      ∨ (∀ draw ∈ drawn, draw.1.name ≠ name)
        ∧ (e.getting drawn).current.get? name = e.current.get? name := by
  induction drawn generalizing e with
  | nil => exact .inr ⟨nofun, rfl⟩
  | cons first rest ih =>
    rcases ih (e.setValue first.1.name first.2) with ⟨draw, hmem, hname, hget⟩ | ⟨hnone, hget⟩
    · exact .inl ⟨draw, List.mem_cons_of_mem _ hmem, hname, hget⟩
    · by_cases hfirst : first.1.name = name
      · refine .inl ⟨first, List.mem_cons_self, hfirst, hget.trans ?_⟩
        rw [Entry.setValue, hfirst, Table.get?_insert_self]
      · refine .inr ⟨List.forall_mem_cons.mpr ⟨hfirst, hnone⟩, hget.trans ?_⟩
        exact Table.get?_insert_ne _ (Ne.symm hfirst) _

namespace ChangeSet

variable {changes : ChangeSet} {id other : Nat} {f g : Entry → Entry}

theorem modify_congr {e : Entry} (he : changes.entry? id = some e) (h : f e = g e) :
    changes.modify id f = changes.modify id g := by
  refine congrArg ChangeSet.mk (List.ext_getElem? fun i => ?_)
  rw [List.getElem?_modify, List.getElem?_modify]
  by_cases hi : id = i
  · subst hi
    rw [show changes.entries[id]? = some e from he]
    simp [h]
  · simp [hi]

theorem modify_getting_nil (changes : ChangeSet) (id : Nat) :
    changes.modify id (·.getting []) = changes :=
  congrArg ChangeSet.mk (List.modify_id id changes.entries)

theorem entry?_modify (changes : ChangeSet) (id other : Nat) (f : Entry → Entry) :
    entry? (changes.modify id f) other
      = (changes.entry? other).map fun e => if id = other then f e else e := by
  unfold entry?
  rw [modify, List.getElem?_modify]
  by_cases h : id = other <;> simp [h]

end ChangeSet

/-- There is a plan for every state that says what is to be done. -/
theorem Planner.directiveKind?_of_plan_error {planner : Planner} {t : EntityType}
    {state : EntityState} {e : UpdateError} (h : planner.plan t state = .error e) :
    state.directiveKind? = none := by
  unfold Planner.plan at h
  split at h
  · cases h
  · split at h
    · rename_i herr
      unfold WritePlan.ofState at herr
      split at herr
      · cases herr
      · assumption
    · cases h

namespace UnitOfWork

open ValueSource

variable {s : Schema} {unit : UnitOfWork} {id : Nat}

/-! ## Turns -/

/-- The values drawn at the turn of an entry. For one that is deleted or not tracked any more there
are none. -/
def drawn (s : Schema) (unit : UnitOfWork) (id : Nat) : List (Property × Value) :=
  match unit.changes.entry? id with
  | none => []
  | some e =>
    match e.state.directiveKind? with
    | none | some .delete => []
    | some kind =>
      unit.planner.source.draws (kind = .insert) e (s.properties e.entityType.name)

theorem drawn_of_none (he : unit.changes.entry? id = none) : unit.drawn s id = [] := by
  rw [drawn, he]

theorem drawn_of_skipped {e : Entry} (he : unit.changes.entry? id = some e)
    (h : e.state.directiveKind? = none ∨ e.state.directiveKind? = some .delete) :
    unit.drawn s id = [] := by
  rw [drawn, he]
  rcases h with h | h <;> simp only [h]

theorem drawn_of_written {e : Entry} {kind : DirectiveKind}
    (he : unit.changes.entry? id = some e) (h : e.state.directiveKind? = some kind)
    (hkind : kind ≠ .delete) : unit.drawn s id
      = unit.planner.source.draws (kind = .insert) e (s.properties e.entityType.name) := by
  rw [drawn, he]
  cases kind with
  | insert => simp only [h]
  | replace => simp only [h]
  | delete => exact absurd rfl hkind

/-- Draws are those of the source for the entry as it is, if there are any. -/
theorem drawn_eq {e : Entry} (he : unit.changes.entry? id = some e) : unit.drawn s id = []
    ∨ ∃ adding, unit.drawn s id
      = unit.planner.source.draws adding e (s.properties e.entityType.name) := by
  cases hkind : e.state.directiveKind? with
  | none => exact .inl (drawn_of_skipped he (.inl hkind))
  | some kind =>
    by_cases hdelete : kind = .delete
    · rw [hdelete] at hkind
      exact .inl (drawn_of_skipped he (.inr hkind))
    · exact .inr ⟨_, drawn_of_written he hkind hdelete⟩

/-- Where something is drawn, there is an entry that it is drawn for. -/
theorem exists_entry_of_drawn (h : unit.drawn s id ≠ []) :
    ∃ e adding, unit.changes.entry? id = some e ∧ unit.drawn s id
      = unit.planner.source.draws adding e (s.properties e.entityType.name) := by
  cases he : unit.changes.entry? id with
  | none => exact absurd (drawn_of_none he) h
  | some e =>
    obtain ⟨adding, hdrawn⟩ := (drawn_eq (s := s) he).resolve_left h
    exact ⟨e, adding, rfl, hdrawn⟩

/-- What a turn does, whether or not it makes a directive: the values are drawn and are in the
entry. -/
structure TakesTurn (s : Schema) (unit : UnitOfWork) (id : Nat) (unit' : UnitOfWork) : Prop where
  source : Drawn unit.planner.source (unit.drawn s id) unit'.planner.source
  changes : unit'.changes = unit.changes.modify id (·.getting (unit.drawn s id))

theorem takesTurn_of_nil {unit' : UnitOfWork} (h : unit.drawn s id = [])
    (hchanges : unit'.changes = unit.changes)
    (hsource : unit'.planner.source = unit.planner.source) : TakesTurn s unit id unit' where
  source := by
    rw [h, hsource]
    exact .nil
  changes := by rw [h, ChangeSet.modify_getting_nil, hchanges]

/-- **A turn draws and fills**, also where it fails. -/
theorem directive_takesTurn (s : Schema) (unit : UnitOfWork) (id : Nat) :
    TakesTurn s unit id (unit.directive s id).2 := by
  rw [directive, ChangeSet.entry]
  cases he : unit.changes.entry? id with
  | none => exact takesTurn_of_nil (drawn_of_none he) rfl rfl
  | some e =>
    dsimp only
    rw [directiveAs]
    split
    · -- there is a plan for every state that values are drawn in
      rename_i err herr
      exact takesTurn_of_nil
        (drawn_of_skipped he (.inl (Planner.directiveKind?_of_plan_error herr))) rfl rfl
    · rename_i plan planner hplan
      obtain ⟨hname, hkind⟩ := Planner.plan_isFor hplan
      rw [Planner.plan_source hplan, WritePlan.write]
      -- a delete writes no values, so none are drawn; otherwise the entry is filled
      by_cases hdelete : plan.kind = .delete
      · rw [if_pos hdelete]
        rw [hdelete] at hkind
        exact takesTurn_of_nil (drawn_of_skipped he (.inr hkind)) rfl rfl
      · have hdrawn := drawn_of_written (s := s) he hkind hdelete
        rw [if_neg hdelete, he, hname]
        refine ⟨?_, ?_⟩
        · rw [hdrawn]
          exact drawn_fill
        · refine ChangeSet.modify_congr he ?_
          rw [hdrawn]
          exact fill_eq_foldl

/-! ## Turns one after the other -/

/-- The draws at the turns of entries, up to the first that makes no directive, each with the
entry that it is for. -/
def drawnFor (s : Schema) (unit : UnitOfWork) : List Nat → List (Nat × Property × Value)
  | [] => []
  | id :: rest =>
    (unit.drawn s id).map (id, ·) ++
      match unit.directive s id with
      | (.error _, _) => []
      | (.ok _, unit) => unit.drawnFor s rest

/-- What the first of several turns does: it draws and fills, and then it is the last one or the
others follow. -/
theorem directives_cons (s : Schema) (unit : UnitOfWork) (id : Nat) (rest : List Nat) :
    ∃ unit', unit.TakesTurn s id unit'
      ∧ ((unit.directives s (id :: rest)).2 = unit'
          ∧ unit.drawnFor s (id :: rest) = (unit.drawn s id).map (id, ·)
        ∨ (unit.directives s (id :: rest)).2 = (unit'.directives s rest).2
          ∧ unit.drawnFor s (id :: rest)
            = (unit.drawn s id).map (id, ·) ++ unit'.drawnFor s rest) := by
  refine ⟨_, unit.directive_takesTurn s id, ?_⟩
  rw [drawnFor, directives]
  cases unit.directive s id with
  | mk result unit' =>
    cases result with
    | error err => exact .inl ⟨rfl, List.append_nil _⟩
    | ok d => exact .inr ⟨rfl, rfl⟩

/-- The draws for one entry. -/
def ofEntry (id : Nat) (log : List (Nat × Property × Value)) : List (Property × Value) :=
  (log.filter fun draw => draw.1 = id).map Prod.snd

theorem ofEntry_append (id : Nat) (log later : List (Nat × Property × Value)) :
    ofEntry id (log ++ later) = ofEntry id log ++ ofEntry id later := by
  rw [ofEntry, List.filter_append, List.map_append]
  rfl

theorem ofEntry_map_self (id : Nat) (drawn : List (Property × Value)) :
    ofEntry id (drawn.map (id, ·)) = drawn := by
  rw [ofEntry, List.filter_map, List.map_map]
  have hall : drawn.filter ((fun draw => decide (draw.1 = id)) ∘ (id, ·)) = drawn :=
    List.filter_eq_self.mpr fun _ _ => decide_eq_true rfl
  rw [hall]
  exact List.map_id drawn

theorem ofEntry_map_ne {other : Nat} (h : id ≠ other) (drawn : List (Property × Value)) :
    ofEntry other (drawn.map (id, ·)) = [] := by
  have hnone : (drawn.map (id, ·)).filter (fun draw => draw.1 = other) = [] := by
    refine List.filter_eq_nil_iff.mpr ?_
    intro draw hdraw
    obtain ⟨_, _, rfl⟩ := List.mem_map.mp hdraw
    simpa using h
  rw [ofEntry, hnone, List.map_nil]

theorem mem_ofEntry {log : List (Nat × Property × Value)} {draw : Property × Value} :
    draw ∈ ofEntry id log ↔ (id, draw) ∈ log := by
  simp [ofEntry]

theorem TakesTurn.getting {unit' : UnitOfWork} (h : TakesTurn s unit id unit') (other : Nat) :
    unit'.changes.entry? other = (unit.changes.entry? other).map
      (·.getting (ofEntry other ((unit.drawn s id).map (id, ·)))) := by
  rw [h.changes, ChangeSet.entry?_modify]
  by_cases hid : id = other
  · subst hid
    simp [ofEntry_map_self]
  · rw [ofEntry_map_ne hid]
    simp only [hid, if_false]
    rfl

/-- **Turns are a log of the source**, whether or not all of them make directives. -/
theorem drawn_directives (s : Schema) (ids : List Nat) : ∀ unit : UnitOfWork,
    Drawn unit.planner.source ((unit.drawnFor s ids).map Prod.snd)
      (unit.directives s ids).2.planner.source := by
  induction ids with
  | nil => exact fun _ => .nil
  | cons id rest ih =>
    intro unit
    have hvalues : ((unit.drawn s id).map (id, ·)).map Prod.snd = unit.drawn s id := by
      rw [List.map_map]
      exact List.map_id _
    obtain ⟨unit', hturn, ⟨hunit, hlog⟩ | ⟨hunit, hlog⟩⟩ := unit.directives_cons s id rest
    · rw [hunit, hlog, hvalues]
      exact hturn.source
    · rw [hunit, hlog, List.map_append, hvalues]
      exact hturn.source.append (ih unit')

/-- **Entries have what was drawn for them** after turns, and nothing else of them is changed. -/
theorem entry?_directives (s : Schema) (ids : List Nat) (other : Nat) : ∀ unit : UnitOfWork,
    ChangeSet.entry? (unit.directives s ids).2.changes other
      = (unit.changes.entry? other).map (·.getting (ofEntry other (unit.drawnFor s ids))) := by
  induction ids with
  | nil =>
    intro unit
    exact Option.map_id'.symm
  | cons id rest ih =>
    intro unit
    obtain ⟨unit', hturn, ⟨hunit, hlog⟩ | ⟨hunit, hlog⟩⟩ := unit.directives_cons s id rest
    · rw [hunit, hlog]
      exact hturn.getting other
    · rw [hunit, hlog, ofEntry_append, ih unit', hturn.getting other, Option.map_map]
      congr 1
      funext e
      exact (e.getting_append _ _).symm

/-- The entry of a draw at the first turn. -/
theorem exists_draws_of_mem_turn {draw : Property × Value} {first : Nat}
    (h : (id, draw) ∈ (unit.drawn s first).map (first, ·)) : ∃ e adding,
      unit.changes.entry? id = some e
        ∧ draw ∈ unit.planner.source.draws adding e (s.properties e.entityType.name)
        ∧ ∀ d ∈ unit.planner.source.draws adding e (s.properties e.entityType.name),
          (id, d) ∈ (unit.drawn s first).map (first, ·) := by
  obtain ⟨_, hdraw, heq⟩ := List.mem_map.mp h
  cases heq
  obtain ⟨e, adding, he, hdrawn⟩ := exists_entry_of_drawn (List.ne_nil_of_mem hdraw)
  rw [hdrawn] at hdraw
  refine ⟨e, adding, he, hdraw, ?_⟩
  intro d hd
  rw [hdrawn]
  exact List.mem_map_of_mem hd

/-- The entry of a draw at its turn, when it may have been filled before. All draws of the turn are
in the log. -/
theorem exists_draws_of_mem {draw : Property × Value} {ids : List Nat} : ∀ {unit : UnitOfWork},
    (id, draw) ∈ unit.drawnFor s ids → ∃ e earlier adding, ∃ source : ValueSource,
      unit.changes.entry? id = some e
        ∧ draw ∈ source.draws adding (e.getting earlier) (s.properties e.entityType.name)
        ∧ ∀ d ∈ source.draws adding (e.getting earlier) (s.properties e.entityType.name),
          (id, d) ∈ unit.drawnFor s ids := by
  induction ids with
  | nil => exact nofun
  | cons first rest ih =>
    intro unit h
    -- the save stops at the first turn if that fails, or goes on to the others
    obtain ⟨unit', hturn, ⟨_, hlog⟩ | ⟨_, hlog⟩⟩ := unit.directives_cons s first rest
    · rw [hlog] at h ⊢
      obtain ⟨e, adding, he, hdraw, hall⟩ := exists_draws_of_mem_turn h
      exact ⟨e, [], adding, unit.planner.source, he, hdraw, hall⟩
    · rw [hlog] at h ⊢
      rcases List.mem_append.mp h with h | h
      · obtain ⟨e, adding, he, hdraw, hall⟩ := exists_draws_of_mem_turn h
        exact ⟨e, [], adding, unit.planner.source, he, hdraw,
          fun d hd => List.mem_append_left _ (hall d hd)⟩
      · -- the turn is a later one, and the first turn may have filled the entry
        have hentry := hturn.getting id
        obtain ⟨e', earlier, adding, source, he', hdraw, hall⟩ := ih h
        rw [he'] at hentry
        obtain ⟨e, he, rfl⟩ := Option.map_eq_some_iff.mp hentry.symm
        rw [← Entry.getting_append, Entry.entityType_of_outline (e.outline_getting _)] at hdraw hall
        exact ⟨e, _, adding, source, he, hdraw,
          fun d hd => List.mem_append_right _ (hall d hd)⟩

/-- An entry is drawn for by properties of its type. -/
theorem mem_properties_of_mem {draw : Property × Value} {ids : List Nat}
    (h : (id, draw) ∈ unit.drawnFor s ids) :
    ∃ e, unit.changes.entry? id = some e ∧ draw.1 ∈ s.properties e.entityType.name := by
  obtain ⟨e, _, _, _, he, hdraw, _⟩ := exists_draws_of_mem h
  exact ⟨e, he, mem_of_mem_draws hdraw⟩

/-! ## Saves -/

/-- The roots of a save in the order of their turns. -/
def rootIds (s : Schema) (unit : UnitOfWork) : List Nat :=
  match unit.changes.groups s with
  | .error _ => []
  | .ok groups => groups.flatMap Prod.snd

/-- The draws of a save. -/
def drawnInSave (s : Schema) (unit : UnitOfWork) : List (Nat × Property × Value) :=
  unit.drawnFor s (unit.rootIds s)

theorem directives_append (xs ys : List Nat) : ∀ unit : UnitOfWork,
    (unit.directives s (xs ++ ys)).2 = match unit.directives s xs with
      | (.error _, unit) => unit
      | (.ok _, unit) => (unit.directives s ys).2 := by
  induction xs with
  | nil => exact fun _ => rfl
  | cons id rest ih =>
    intro unit
    rw [List.cons_append, directives, directives]
    cases hfirst : unit.directive s id with
    | mk result mid =>
      cases result with
      | error e => rfl
      | ok d =>
        -- turns go on with the second list only if all of the first came through
        dsimp only
        rw [ih mid]
        cases hrest : mid.directives s rest with
        | mk result later => cases result <;> rfl

end UnitOfWork

namespace Database

variable {db : Database} {unit : UnitOfWork} {id : Nat}

theorem prepareGroups_snd (groups : ChangeSet.Groups) : ∀ unit : UnitOfWork,
    (db.prepareGroups unit groups).2
      = (unit.directives db.schema (groups.flatMap Prod.snd)).2 := by
  induction groups with
  | nil => exact fun _ => rfl
  | cons group rest ih =>
    intro unit
    obtain ⟨collection, roots⟩ := group
    rw [prepareGroups, List.flatMap_cons, UnitOfWork.directives_append]
    cases hfirst : unit.directives db.schema roots with
    | mk result mid =>
      cases result with
      | error e => rfl
      | ok ds => exact ih mid

/-- A preparation is the turns of all roots, also where it fails. -/
theorem prepare_snd (db : Database) (unit : UnitOfWork) :
    (db.prepare unit).2 = (unit.directives db.schema (unit.rootIds db.schema)).2 := by
  rw [prepare, UnitOfWork.rootIds]
  cases unit.changes.groups db.schema with
  | error e => rfl
  | ok groups => exact prepareGroups_snd groups unit

section Saved

variable {σ : Type} [DocumentStore σ]

/-- After a save the unit of work is as it was prepared, but that its changes may be accepted. -/
theorem saveOn_unit (db : Database) (way : Way σ) (unit : UnitOfWork) (store : σ) :
    (db.saveOn way unit store).2.1 = (db.prepare unit).2
      ∨ (db.saveOn way unit store).2.1
        = { (db.prepare unit).2 with changes := (db.prepare unit).2.changes.acceptAll } := by
  cases hprepare : db.prepare unit with
  | mk prepared mid =>
    cases prepared with
    | error e =>
      rw [saveOn, saveBy_of_error hprepare]
      exact .inl rfl
    | ok batches =>
      rw [saveOn, saveBy_of_ok hprepare]
      dsimp only
      rw [finish]
      split
      · exact .inr rfl
      · exact .inl rfl

/-- **The draws of a save are a log of the source**, however the save ends. -/
theorem drawn_saveOn (db : Database) (way : Way σ) (unit : UnitOfWork) (store : σ) :
    ValueSource.Drawn unit.planner.source ((unit.drawnInSave db.schema).map Prod.snd)
      (db.saveOn way unit store).2.1.planner.source := by
  have hdrawn := UnitOfWork.drawn_directives db.schema (unit.rootIds db.schema) unit
  rw [← db.prepare_snd unit] at hdrawn
  rcases db.saveOn_unit way unit store with h | h
  · rw [h]
    exact hdrawn
  · rw [h]
    exact hdrawn

/-- **After a save an entry has what was drawn for it**, however the save ends. -/
theorem entry?_saveOn (db : Database) (way : Way σ) (store : σ) {e : Entry}
    (he : unit.changes.entry? id = some e) :
    ∃ e', ChangeSet.entry? (db.saveOn way unit store).2.1.changes id = some e'
      ∧ e'.entityType = e.entityType
      ∧ e'.current
        = (e.getting (UnitOfWork.ofEntry id (unit.drawnInSave db.schema))).current := by
  have hentry := UnitOfWork.entry?_directives db.schema (unit.rootIds db.schema) id unit
  rw [← db.prepare_snd unit, he, Option.map_some] at hentry
  have htype := Entry.entityType_of_outline
    (e.outline_getting (UnitOfWork.ofEntry id (unit.drawnInSave db.schema)))
  rcases db.saveOn_unit way unit store with h | h
  · rw [h]
    exact ⟨_, hentry, htype, rfl⟩
  · rw [h]
    exact ⟨_, ChangeSet.entry?_acceptAll hentry, htype, rfl⟩

end Saved

end Database

end Odm
