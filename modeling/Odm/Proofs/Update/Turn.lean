import Odm.Proofs.Success
import Odm.Update.UnitOfWork

/-!
# The turn of an entry

When a root entry's turn comes, values are generated for it and its directive is made. `Written`
says what the directive is, by the state of the entry: the whole document for an added one, the
document and a filter for a modified or unchanged one, a filter for a deleted one. It does not
matter whether the plan for that was made just then or before, because a planner's plans are all
for the type and the state they were made for.

Of the unit of work a turn changes nothing but current values of its own entry. The *outline* of
an entry is all the rest, and so the outlines of a whole change set survive any number of turns.
-/

namespace Odm

/-! ## Outlines -/

namespace Entry

/-- An entry without its current values. -/
def outline (e : Entry) : Entry := { e with current := [] }

/-- What matches the stored document of an entry. -/
def filter (s : Schema) (e : Entry) : Except UpdateError Document :=
  WritePlan.filter s ⟨e.entityType, .replace⟩ e

theorem id_of_outline {e e' : Entry} (h : e'.outline = e.outline) : e'.id = e.id := by
  have hf := congrArg Entry.id h
  exact hf

theorem owner_of_outline {e e' : Entry} (h : e'.outline = e.outline) : e'.owner = e.owner := by
  have hf := congrArg Entry.owner h
  exact hf

theorem entityType_of_outline {e e' : Entry} (h : e'.outline = e.outline) :
    e'.entityType = e.entityType := by
  have hf := congrArg Entry.entityType h
  exact hf

theorem state_of_outline {e e' : Entry} (h : e'.outline = e.outline) : e'.state = e.state := by
  have hf := congrArg Entry.state h
  exact hf

theorem baseline_of_outline {e e' : Entry} (h : e'.outline = e.outline) :
    e'.baseline = e.baseline := by
  have hf := congrArg Entry.baseline h
  exact hf

end Entry

/-- **Generating values keeps the outline** of an entry, whether or not it succeeds. -/
theorem ValueSource.fill_outline (adding : Bool) (properties : List Property) :
    ∀ (source : ValueSource) (e : Entry),
      (source.fill adding e properties).2.1.outline = e.outline := by
  induction properties with
  | nil => exact fun _ _ => rfl
  | cons p rest ih =>
    intro source e
    rw [fill]
    split
    · split
      · rfl
      · rw [ih]
        rfl
    · exact ih source e

theorem ValueSource.outline_of_fill {adding : Bool} {properties : List Property}
    {source source' : ValueSource} {e e' : Entry} {result : Except UpdateError Unit}
    (h : source.fill adding e properties = (result, e', source')) : e'.outline = e.outline := by
  have hout := fill_outline adding properties source e
  rwa [h] at hout

namespace ChangeSet

/-- The outlines of all entries. -/
def outlines (changes : ChangeSet) : List Entry := changes.entries.map Entry.outline

theorem entry_eq_ok {changes : ChangeSet} {id : Nat} {e : Entry}
    (h : changes.entry id = .ok e) : changes.entry? id = some e := by
  unfold entry at h
  split at h
  · cases h
    assumption
  · cases h

theorem entry?_modify_self {changes : ChangeSet} {id : Nat} {e : Entry} (f : Entry → Entry)
    (h : changes.entry? id = some e) : entry? (changes.modify id f) id = some (f e) := by
  unfold entry? at h ⊢
  rw [modify, List.getElem?_modify, h]
  simp

theorem entry?_modify_ne {changes : ChangeSet} {id other : Nat} (f : Entry → Entry)
    (h : id ≠ other) : entry? (changes.modify id f) other = changes.entry? other := by
  unfold entry?
  rw [modify, List.getElem?_modify]
  simp [h]

/-- A change that keeps the outline of one entry keeps all outlines. -/
theorem outlines_modify {changes : ChangeSet} {id : Nat} {e e' : Entry}
    (h : changes.entry? id = some e) (he : e'.outline = e.outline) :
    (changes.modify id fun _ => e').outlines = changes.outlines := by
  unfold entry? at h
  apply List.ext_getElem?
  intro i
  rw [outlines, outlines, modify, List.getElem?_map, List.getElem?_map, List.getElem?_modify]
  by_cases hi : id = i
  · subst hi
    rw [h] -- this entry is another one now, with the same outline
    simp [he]
  · cases changes.entries[i]? <;> simp [hi]

/-- What an entry is now can be seen from its outline before. -/
theorem entry?_of_outlines {changes changes' : ChangeSet} {id : Nat} {e' : Entry}
    (h : changes'.outlines = changes.outlines) (he : changes'.entry? id = some e') :
    ∃ e, changes.entry? id = some e ∧ e'.outline = e.outline := by
  unfold entry? at he
  have hi := congrArg (·[id]?) h
  simp only [outlines, List.getElem?_map, he, Option.map_some] at hi
  obtain ⟨e, hentry, hout⟩ := Option.map_eq_some_iff.mp hi.symm
  exact ⟨e, hentry, hout.symm⟩

end ChangeSet

/-! ## Directives -/

theorem WritePlan.filter_eq {s : Schema} {plan : WritePlan} {e : Entry}
    (h : plan.entityType.name = e.entityType.name) : plan.filter s e = e.filter s := by
  have hkey : plan.addKey e = WritePlan.addKey ⟨e.entityType, .replace⟩ e := by
    funext filter p
    rw [addKey, addKey, h]
  rw [Entry.filter, filter, filter, tokens, tokens, hkey, h]

/-- What the directive for an entry is, and the unit of work once it has been made. -/
inductive Written (s : Schema) (unit : UnitOfWork) (id : Nat) (e : Entry) :
    Directive → UnitOfWork → Prop where
  | inserted {e' : Entry} {source : ValueSource} {document : Document} {unit' : UnitOfWork} :
    e.state = .added →
    unit.planner.source.fill true e (s.properties e.entityType.name) = (.ok (), e', source) →
    unit'.changes = unit.changes.modify id (fun _ => e') →
    unit'.changes.compose s id = .ok document →
    Written s unit id e (.insert document) unit'
  | replaced {e' : Entry} {source : ValueSource} {filter document : Document}
      {unit' : UnitOfWork} :
    e.state = .modified ∨ e.state = .unchanged →
    unit.planner.source.fill false e (s.properties e.entityType.name) = (.ok (), e', source) →
    unit'.changes = unit.changes.modify id (fun _ => e') →
    e'.filter s = .ok filter →
    unit'.changes.compose s id = .ok document →
    Written s unit id e (.replace filter document) unit'
  | deleted {filter : Document} {unit' : UnitOfWork} :
    e.state = .deleted →
    e.filter s = .ok filter →
    unit'.changes = unit.changes →
    Written s unit id e (.delete filter) unit'

theorem EntityState.directiveKind?_eq_insert {state : EntityState}
    (h : state.directiveKind? = some .insert) : state = .added := by
  cases state <;> first | rfl | cases h

theorem EntityState.directiveKind?_eq_replace {state : EntityState}
    (h : state.directiveKind? = some .replace) : state = .modified ∨ state = .unchanged := by
  cases state with
  | modified => exact .inl rfl
  | unchanged => exact .inr rfl
  | detached => cases h
  | deleted => cases h
  | added => cases h

theorem EntityState.directiveKind?_eq_delete {state : EntityState}
    (h : state.directiveKind? = some .delete) : state = .deleted := by
  cases state <;> first | rfl | cases h

theorem Planner.plan_source {planner planner' : Planner} {t : EntityType}
    {state : EntityState} {plan : WritePlan} (h : planner.plan t state = .ok (plan, planner')) :
    planner'.source = planner.source := by
  unfold Planner.plan at h
  split at h
  · cases h
    rfl
  · split at h
    · cases h
    · cases h
      rfl

namespace WritePlan

variable {s : Schema} {plan : WritePlan} {changes : ChangeSet} {id : Nat}
  {directive : Directive}

theorem directive_insert (hkind : plan.kind = .insert)
    (h : plan.directive s changes id = .ok directive) :
    ∃ document, changes.compose s id = .ok document ∧ directive = .insert document := by
  rw [WritePlan.directive, hkind] at h
  obtain ⟨document, hdocument, h⟩ := Except.bind_eq_ok_iff.mp h
  exact ⟨document, hdocument, (Except.pure_eq_ok_iff.mp h).symm⟩

theorem directive_replace (hkind : plan.kind = .replace)
    (h : plan.directive s changes id = .ok directive) :
    ∃ e filter document, changes.entry? id = some e ∧ plan.filter s e = .ok filter
      ∧ changes.compose s id = .ok document ∧ directive = .replace filter document := by
  rw [WritePlan.directive, hkind] at h
  obtain ⟨e, he, h⟩ := Except.bind_eq_ok_iff.mp h
  obtain ⟨filter, hfilter, h⟩ := Except.bind_eq_ok_iff.mp h
  obtain ⟨document, hdocument, h⟩ := Except.bind_eq_ok_iff.mp h
  exact ⟨e, filter, document, ChangeSet.entry_eq_ok he, hfilter, hdocument,
    (Except.pure_eq_ok_iff.mp h).symm⟩

theorem directive_delete (hkind : plan.kind = .delete)
    (h : plan.directive s changes id = .ok directive) :
    ∃ e filter, changes.entry? id = some e ∧ plan.filter s e = .ok filter
      ∧ directive = .delete filter := by
  rw [WritePlan.directive, hkind] at h
  obtain ⟨e, he, h⟩ := Except.bind_eq_ok_iff.mp h
  obtain ⟨filter, hfilter, h⟩ := Except.bind_eq_ok_iff.mp h
  exact ⟨e, filter, ChangeSet.entry_eq_ok he, hfilter, (Except.pure_eq_ok_iff.mp h).symm⟩

/-- Values come before the directive, except where there is nothing but a filter. -/
theorem write_eq_ok {source source' : ValueSource} {changes' : ChangeSet} {e : Entry}
    (he : changes.entry? id = some e) (hkind : plan.kind ≠ .delete)
    (h : plan.write s id changes source = (.ok directive, changes', source')) :
    ∃ e', source.fill (plan.kind = .insert) e (s.properties plan.entityType.name)
        = (.ok (), e', source')
      ∧ changes' = changes.modify id (fun _ => e')
      ∧ plan.directive s changes' id = .ok directive := by
  rw [write, if_neg hkind, he] at h
  cases hfill : source.fill (plan.kind = .insert) e (s.properties plan.entityType.name) with
  | mk filled rest =>
    obtain ⟨e', source''⟩ := rest
    simp only [hfill, Prod.mk.injEq] at h
    obtain ⟨hdirective, rfl, rfl⟩ := h
    cases filled with
    | error err => cases hdirective
    | ok u => exact ⟨e', rfl, rfl, hdirective⟩

end WritePlan

/-- A directive is written by a plan for the type and the state of its entry. -/
theorem UnitOfWork.exists_plan {s : Schema} {unit unit' : UnitOfWork} {id : Nat}
    {directive : Directive} (h : unit.directive s id = (.ok directive, unit')) :
    ∃ (e : Entry) (plan : WritePlan), unit.changes.entry? id = some e
      ∧ plan.IsFor e.entityType.name e.state
      ∧ plan.write s id unit.changes unit.planner.source
        = (.ok directive, unit'.changes, unit'.planner.source) := by
  unfold UnitOfWork.directive at h
  split at h
  · cases h
  rename_i e hentry
  unfold directiveAs at h
  split at h
  · cases h
  rename_i plan planner hplan
  -- The plan may be an old one, but it is for this type and this state.
  refine ⟨e, plan, ChangeSet.entry_eq_ok hentry, Planner.plan_isFor hplan, ?_⟩
  rw [Planner.plan_source hplan] at h
  cases hwrite : plan.write s id unit.changes unit.planner.source with
  | mk result rest =>
    obtain ⟨changes, source⟩ := rest
    simp only [hwrite, Prod.mk.injEq] at h
    obtain ⟨rfl, rfl⟩ := h
    rfl

/-- **The directive for an entry is the one that its state asks for.** -/
theorem UnitOfWork.directive_written {s : Schema} {unit unit' : UnitOfWork} {id : Nat}
    {directive : Directive} (h : unit.directive s id = (.ok directive, unit')) :
    ∃ e, unit.changes.entry? id = some e ∧ Written s unit id e directive unit' := by
  obtain ⟨e, plan, he, ⟨hname, hstate⟩, hwrite⟩ := exists_plan h
  refine ⟨e, he, ?_⟩
  cases hkind : plan.kind with
  | insert =>
    obtain ⟨e', hfill, hchanges, hd⟩ := WritePlan.write_eq_ok he (by simp [hkind]) hwrite
    obtain ⟨document, hdocument, rfl⟩ := WritePlan.directive_insert hkind hd
    rw [hkind, hname] at hfill
    exact .inserted (EntityState.directiveKind?_eq_insert (hkind ▸ hstate)) hfill hchanges
      hdocument
  | replace =>
    obtain ⟨e', hfill, hchanges, hd⟩ := WritePlan.write_eq_ok he (by simp [hkind]) hwrite
    obtain ⟨e'', filter, document, he'', hfilter, hdocument, rfl⟩ :=
      WritePlan.directive_replace hkind hd
    rw [hkind, hname] at hfill
    rw [hchanges, ChangeSet.entry?_modify_self _ he] at he''
    cases he''
    -- The filter is made after values were generated, from the entry that has them.
    simp only [reduceCtorEq, decide_false] at hfill
    have hout := ValueSource.outline_of_fill hfill
    rw [WritePlan.filter_eq (by rw [hname, Entry.entityType_of_outline hout])] at hfilter
    exact .replaced (EntityState.directiveKind?_eq_replace (hkind ▸ hstate)) hfill hchanges
      hfilter hdocument
  | delete =>
    rw [WritePlan.write, if_pos hkind] at hwrite
    simp only [Prod.mk.injEq] at hwrite
    obtain ⟨hd, hchanges, _⟩ := hwrite
    obtain ⟨e', filter, he', hfilter, rfl⟩ := WritePlan.directive_delete hkind hd
    cases he.symm.trans he'
    rw [WritePlan.filter_eq hname] at hfilter
    exact .deleted (EntityState.directiveKind?_eq_delete (hkind ▸ hstate)) hfilter
      hchanges.symm

/-- **A turn keeps all outlines.** -/
theorem Written.outlines {s : Schema} {unit unit' : UnitOfWork} {id : Nat} {e : Entry}
    {directive : Directive} (he : unit.changes.entry? id = some e)
    (h : Written s unit id e directive unit') :
    unit'.changes.outlines = unit.changes.outlines := by
  cases h with
  | inserted _ hfill hchanges _ =>
    rw [hchanges, ChangeSet.outlines_modify he (ValueSource.outline_of_fill hfill)]
  | replaced _ hfill hchanges _ _ =>
    rw [hchanges, ChangeSet.outlines_modify he (ValueSource.outline_of_fill hfill)]
  | deleted _ _ hchanges => rw [hchanges]

/-- An entry that is stored already is looked for by its own filter. -/
theorem Written.filter_of_ne_added {s : Schema} {unit unit' : UnitOfWork} {id : Nat} {e : Entry}
    {directive : Directive} (h : Written s unit id e directive unit') (hadded : e.state ≠ .added) :
    ∃ (filter : Document) (e' : Entry), directive.filter? = some filter
      ∧ e'.outline = e.outline ∧ e'.filter s = .ok filter := by
  cases h with
  | inserted hstate _ _ _ => exact absurd hstate hadded
  | replaced _ hfill _ hfilter _ =>
    exact ⟨_, _, rfl, ValueSource.outline_of_fill hfill, hfilter⟩
  | deleted _ hfilter _ => exact ⟨_, e, rfl, rfl, hfilter⟩

/-! ## Turns -/

/-- The turn of a root entry: its directive, with the unit of work before and after. -/
structure Turn where
  id : Nat
  before : UnitOfWork
  directive : Directive
  after : UnitOfWork

/-- Turns taken one after the other. -/
inductive Turns (s : Schema) : UnitOfWork → List Turn → UnitOfWork → Prop where
  | nil {unit : UnitOfWork} : Turns s unit [] unit
  | cons {unit unit' unit'' : UnitOfWork} {id : Nat} {directive : Directive}
      {rest : List Turn} :
    unit.directive s id = (.ok directive, unit') → Turns s unit' rest unit'' →
    Turns s unit (⟨id, unit, directive, unit'⟩ :: rest) unit''

theorem Turns.append {s : Schema} {unit unit' unit'' : UnitOfWork} {xs ys : List Turn}
    (hxs : Turns s unit xs unit') (hys : Turns s unit' ys unit'') :
    Turns s unit (xs ++ ys) unit'' := by
  induction hxs with
  | nil => exact hys
  | cons h _ ih => exact .cons h (ih hys)

/-- What one turn of several does, in a unit of work that still has all outlines. -/
theorem Turns.mem_written {s : Schema} {unit unit' : UnitOfWork} {turns : List Turn}
    (h : Turns s unit turns unit') {turn : Turn} (hturn : turn ∈ turns) :
    turn.before.changes.outlines = unit.changes.outlines
      ∧ ∃ e, turn.before.changes.entry? turn.id = some e
        ∧ Written s turn.before turn.id e turn.directive turn.after := by
  induction h with
  | nil => cases hturn
  | cons hdirective _ ih =>
    obtain ⟨e, he, hwritten⟩ := UnitOfWork.directive_written hdirective
    rcases List.mem_cons.mp hturn with rfl | hrest
    · exact ⟨rfl, e, he, hwritten⟩
    · obtain ⟨hout, hturn⟩ := ih hrest
      exact ⟨hout.trans (hwritten.outlines he), hturn⟩

theorem UnitOfWork.directives_turns {s : Schema} {ids : List Nat} :
    ∀ {unit unit' : UnitOfWork} {directives : List Directive},
      unit.directives s ids = (.ok directives, unit') →
      ∃ turns, Turns s unit turns unit' ∧ turns.map (·.id) = ids
        ∧ turns.map (·.directive) = directives := by
  induction ids with
  | nil =>
    intro unit unit' directives h
    cases h
    exact ⟨[], .nil, rfl, rfl⟩
  | cons id rest ih =>
    intro unit unit' directives h
    rw [UnitOfWork.directives] at h
    split at h
    · cases h
    · rename_i d unit₁ hd
      -- the directives of the rest come from the unit of work after the first turn
      cases hrest : unit₁.directives s rest with
      | mk later unit₂ =>
        simp only [hrest, Prod.mk.injEq] at h
        obtain ⟨hlater, rfl⟩ := h
        obtain ⟨ds, rfl, rfl⟩ := Except.map_eq_ok_iff.mp hlater
        obtain ⟨turns, hturns, hids, hds⟩ := ih hrest
        exact ⟨_, .cons hd hturns, by rw [List.map_cons, hids], by rw [List.map_cons, hds]⟩

end Odm
