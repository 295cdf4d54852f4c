import Odm.Update.ValueSource
import Odm.Store.Directive
import Odm.Update.Composition

/-!
# Write plans

A write plan says how the entities of one type in one state are written: added ones are
inserted, deleted ones deleted, and modified or unchanged ones replaced as a whole, because a
change anywhere in an embedded object is a change of the document it is in.

Replaces and deletes find the stored document by its key and by the concurrency tokens of the
entity, all with their baseline values. Values are generated before an insert or a replace is
made, and stay in the entry, so that it has what the store gets.
-/

namespace Odm

/-- What saving does with an entity in this state, if it is tracked. -/
def EntityState.directiveKind? : EntityState → Option DirectiveKind
  | .added => some .insert
  | .deleted => some .delete
  | .modified | .unchanged => some .replace
  | .detached => none

/-- How entities of a type are written. -/
structure WritePlan where
  entityType : EntityType
  kind : DirectiveKind
  deriving DecidableEq, Repr

namespace WritePlan

/-- The plan for a type and a state. -/
def ofState (t : EntityType) (state : EntityState) : Except UpdateError WritePlan :=
  match state.directiveKind? with
  | some kind => .ok ⟨t, kind⟩
  | none => .error (.invalidEntityState state)

/-- The filter with the baseline value of a key property, which must be there. -/
def addKey (plan : WritePlan) (e : Entry) (filter : Document) (p : Property) :
    Except UpdateError Document :=
  match e.baselineValue? p.name with
  | none | some .null => .error (.missingKeyValue plan.entityType.name p.name)
  | some v => .ok (filter.insert p.element v)

/-- The filter with the baseline value of a concurrency token, null where there is none. -/
def addToken (e : Entry) (filter : Document) (p : Property) : Document :=
  filter.insert p.element ((e.baselineValue? p.name).getD .null)

/-- The stored properties that detect changes made elsewhere. -/
def tokens (s : Schema) (plan : WritePlan) : List Property :=
  (s.properties plan.entityType.name).filter fun p => p.isConcurrencyToken && p.isPersisted

/-- What matches the stored document of an entry. -/
def filter (s : Schema) (plan : WritePlan) (e : Entry) : Except UpdateError Document := do
  let key := s.keyProperties plan.entityType.name
  if key.isEmpty then throw (.missingPrimaryKey plan.entityType.name)
  let filter ← key.foldlM (plan.addKey e) []
  return (plan.tokens s).foldl (addToken e) filter

/-- The directive for an entry as it is. -/
def directive (s : Schema) (plan : WritePlan) (changes : ChangeSet) (id : Nat) :
    Except UpdateError Directive := do
  match plan.kind with
  | .insert => return .insert (← changes.compose s id)
  | .replace =>
    let filter ← plan.filter s (← changes.entry id)
    return .replace filter (← changes.compose s id)
  | .delete => return .delete (← plan.filter s (← changes.entry id))

/-- The directive for an entry, with values generated first where they are needed. -/
def write (s : Schema) (plan : WritePlan) (id : Nat) (changes : ChangeSet)
    (source : ValueSource) : Except UpdateError Directive × ChangeSet × ValueSource :=
  if plan.kind = .delete then (plan.directive s changes id, changes, source)
  else
    match changes.entry? id with
    | none => (.error (.unknownEntry id), changes, source)
    | some e =>
      let (filled, e, source) :=
        source.fill (plan.kind = .insert) e (s.properties plan.entityType.name)
      let changes := changes.modify id fun _ => e
      (filled.bind fun _ => plan.directive s changes id, changes, source)

end WritePlan

/-- Whether a plan is one for entities of the named type in a state. -/
def WritePlan.IsFor (plan : WritePlan) (typeName : String) (state : EntityState) : Prop :=
  plan.entityType.name = typeName ∧ state.directiveKind? = some plan.kind

theorem WritePlan.ofState_isFor {t : EntityType} {state : EntityState} {plan : WritePlan}
    (h : WritePlan.ofState t state = .ok plan) : plan.IsFor t.name state := by
  unfold ofState at h
  split at h
  · cases h
    exact ⟨rfl, by assumption⟩
  · cases h

/-- The plans made so far, each for its type and state, and the source of generated values.
Both outlive a unit of work. -/
structure Planner where
  plans : List ((String × EntityState) × WritePlan) := []
  source : ValueSource := {}
  sound : ∀ known ∈ plans, known.2.IsFor known.1.1 known.1.2 := by simp

namespace Planner

/-- The planner with one more plan. -/
def learn (planner : Planner) (t : EntityType) (state : EntityState) (plan : WritePlan)
    (h : plan.IsFor t.name state) : Planner where
  plans := ((t.name, state), plan) :: planner.plans
  source := planner.source
  sound := by
    intro known hknown
    cases hknown with
    | head => exact h
    | tail _ hknown => exact planner.sound known hknown

/-- The plan for a type and a state: the one made before, else a new one. -/
def plan (planner : Planner) (t : EntityType) (state : EntityState) :
    Except UpdateError (WritePlan × Planner) :=
  match planner.plans.lookup (t.name, state) with
  | some known => .ok (known, planner)
  | none =>
    match h : WritePlan.ofState t state with
    | .error e => .error e
    | .ok made => .ok (made, planner.learn t state made (WritePlan.ofState_isFor h))

/-- **The plan for a type and a state is one for them**, whether it was made before or not. -/
theorem plan_isFor {planner planner' : Planner} {t : EntityType} {state : EntityState}
    {plan : WritePlan} (h : planner.plan t state = .ok (plan, planner')) :
    plan.IsFor t.name state := by
  unfold Planner.plan at h
  split at h
  · rename_i known hknown
    cases h
    obtain ⟨_, _, hplans, _⟩ := List.lookup_eq_some_iff.mp hknown
    exact planner.sound ((t.name, state), plan) (by simp [hplans])
  · split at h
    · cases h
    · rename_i made hmade
      cases h
      exact WritePlan.ofState_isFor hmade

/-- How many plans have been made. -/
def count (planner : Planner) : Nat := planner.plans.length

end Planner

end Odm
