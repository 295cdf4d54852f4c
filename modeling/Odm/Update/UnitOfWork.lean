import Odm.Update.WritePlan

/-!
# Units of work

A unit of work has a change set and the planner that turns its entries into directives.
Directives are made for root entries only; the entries embedded in them come along. Whatever
has been generated or planned before an error stays.
-/

namespace Odm

/-- A change set on its way to the store. -/
structure UnitOfWork where
  changes : ChangeSet := {}
  planner : Planner := {}

namespace UnitOfWork

/-- The directive for an entry, written as an entity of the given type and state. -/
def directiveAs (s : Schema) (t : EntityType) (state : EntityState) (id : Nat)
    (unit : UnitOfWork) : Except UpdateError Directive × UnitOfWork :=
  match unit.planner.plan t state with
  | .error e => (.error e, unit)
  | .ok (plan, planner) =>
    let (result, changes, source) := plan.write s id unit.changes planner.source
    (result, ⟨changes, { planner with source := source }⟩)

/-- The directive for an entry. -/
def directive (s : Schema) (id : Nat) (unit : UnitOfWork) :
    Except UpdateError Directive × UnitOfWork :=
  match unit.changes.entry id with
  | .error e => (.error e, unit)
  | .ok e => unit.directiveAs s e.entityType e.state id

/-- The directives for entries in their order, up to the first that has none. -/
def directives (s : Schema) (unit : UnitOfWork) :
    List Nat → Except UpdateError (List Directive) × UnitOfWork
  | [] => (.ok [], unit)
  | id :: rest =>
    match unit.directive s id with
    | (.error e, unit) => (.error e, unit)
    | (.ok d, unit) =>
      let (later, unit) := unit.directives s rest
      (later.map (d :: ·), unit)

end UnitOfWork

end Odm
