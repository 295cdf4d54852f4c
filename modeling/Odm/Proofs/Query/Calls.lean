import Odm.Proofs.Query.Mapped
import Odm.Proofs.Query.Projection

/-!
# Statements under calls

A statement is made by calls, of which some are refused. `Call.result` has the calls as the
operations on statements that they are, and a refused one leaves the statement that there was. But
calls work in place, so what a refused call leaves behind has to be looked at: `Call.edit` has them
as programs on a statement, with their tests and their changes one after the other, and `edit_run`
says that a refused one has not got to its changes.

What one call makes of each part of a statement is said once, in `Step`. From it come the
invariants of a run of calls: the predicate joins all that was applied, the first limit and the
first offset are final, and nothing is ordered by twice.
-/

namespace Odm

namespace Select

/-! ## Calls in place -/

/-- A call of one of the operations that change a statement. -/
inductive Call where
  | replaceMapping (entries : List (OutputPath × Node))
  | applyProjection
  | addOutput (node : Node) (preferred : Option String)
  | applyDistinct
  | applyPredicate (predicate : Scalar)
  | applyLimit (limit : Scalar)
  | applyOffset (offset : Scalar)
  | applyOrdering (term : OrderTerm)
  | appendOrdering (term : OrderTerm)
  | clearOrdering
  | reverseOrderings
  deriving DecidableEq

namespace Call

/-- The statement that the operation makes of another one, unless it refuses. -/
def result (q : Select) : Call → Except QueryError Select
  | .replaceMapping entries => .ok (q.replaceMapping entries)
  | .applyProjection => .ok q.applyProjection
  | .addOutput node preferred => .ok (q.addOutput node preferred).2
  | .applyDistinct => .ok q.applyDistinct
  | .applyPredicate predicate => .ok (q.applyPredicate predicate)
  | .applyLimit limit => q.applyLimit limit
  | .applyOffset offset => q.applyOffset offset
  | .applyOrdering term => q.applyOrdering term
  | .appendOrdering term => .ok (q.appendOrdering term)
  | .clearOrdering => .ok q.clearOrdering
  | .reverseOrderings => q.reverseOrderings

/-- The call as a program that changes a statement in place. What has been changed by the time it
stops stays changed. -/
def edit : Call → EStateM QueryError Select Unit
  | .replaceMapping entries => modify (·.replaceMapping entries)
  | .applyProjection => modify (·.applyProjection)
  | .addOutput node preferred => modify fun q => (q.addOutput node preferred).2
  | .applyDistinct => modify (·.applyDistinct)
  | .applyPredicate predicate => modify (·.applyPredicate predicate)
  | .applyLimit limit => do
    if (← get).limit.isSome then throw .limitAlreadyApplied
    modify fun q => { q with limit := some limit }
  | .applyOffset offset => do
    if (← get).offset.isSome then throw .offsetAlreadyApplied
    modify fun q => { q with offset := some offset }
  | .applyOrdering term => do
    let q ← get
    if q.isDistinct || q.limit.isSome || q.offset.isSome then throw .orderingAfterPaging
    modify (·.clearOrdering)
    modify fun q => { q with orderings := q.orderings ++ [term] }
  | .appendOrdering term => modify (·.appendOrdering term)
  | .clearOrdering => modify (·.clearOrdering)
  | .reverseOrderings => do
    let q ← get
    if q.limit.isSome || q.offset.isSome then throw .reverseAfterPaging
    modify fun q => { q with orderings := q.orderings.map OrderTerm.reversed }

/-- **A call in place makes the same statement, or refuses and has changed nothing.** -/
theorem edit_run (c : Call) (q : Select) : c.edit.run q = match c.result q with
    | .ok q' => .ok () q'
    | .error e => .error e q := by
  -- the tests look at three parts of the statement, so these are taken apart
  obtain ⟨_, _, _, _, _, _, _, limit, offset, isDistinct⟩ := q
  cases c with
  | applyLimit _ => cases limit <;> rfl
  | applyOffset _ => cases offset <;> rfl
  | applyOrdering _ => cases isDistinct <;> cases limit <;> cases offset <;> rfl
  | reverseOrderings => cases limit <;> cases offset <;> rfl
  | _ => rfl

theorem edit_eq_ok_iff (c : Call) {q q' : Select} :
    c.edit.run q = .ok () q' ↔ c.result q = .ok q' := by
  rw [edit_run]
  cases c.result q with
  | ok made => simp
  | error e => simp

theorem edit_eq_error (c : Call) {q q' : Select} {e : QueryError}
    (h : c.edit.run q = .error e q') : c.result q = .error e ∧ q' = q := by
  rw [edit_run] at h
  split at h
  · cases h
  · rename_i hrefused
    cases h
    exact ⟨hrefused, rfl⟩

end Call

/-- The statement that a call leaves behind, refused or not. -/
def after (q : Select) (c : Call) : Select :=
  match c.result q with
  | .ok q' => q'
  | .error _ => q

variable {q q' : Select} {c : Call}

theorem after_of_ok (h : c.result q = .ok q') : q.after c = q' := by
  rw [after, h]

theorem after_of_error {e : QueryError} (h : c.result q = .error e) : q.after c = q := by
  rw [after, h]

/-- The statement after calls, one after the other. -/
def afterAll (q : Select) (calls : List Call) : Select := calls.foldl after q

/-! ## What calls ask for -/

namespace Call

/-- The predicate that a call applies; a literal `true` counts as none. -/
def predicate? : Call → Option Scalar
  | .applyPredicate predicate => if predicate.isTrue then none else some predicate
  | _ => none

def limit? : Call → Option Scalar
  | .applyLimit limit => some limit
  | _ => none

def offset? : Call → Option Scalar
  | .applyOffset offset => some offset
  | _ => none

/-- The term that a call orders by behind all others. -/
def appended? : Call → Option OrderTerm
  | .appendOrdering term => some term
  | _ => none

end Call

/-- One more predicate behind another one. -/
def conjoin (existing predicate : Scalar) : Scalar :=
  .binary .andAlso existing predicate .bool predicate.mapping

/-- Predicates in their order, each joined to all before it; none if there are none. -/
def conjunction : List Scalar → Option Scalar
  | [] => none
  | first :: rest => some (rest.foldl conjoin first)

@[simp]
theorem conjunction_toList (predicate : Option Scalar) :
    conjunction predicate.toList = predicate := by
  cases predicate <;> rfl

/-- What is joined already is joined to what comes later. -/
theorem conjunction_append (earlier later : List Scalar) :
    conjunction ((conjunction earlier).toList ++ later) = conjunction (earlier ++ later) := by
  cases earlier with
  | nil => rfl
  | cons first rest => simp [conjunction]

theorem mapped_conjunction {predicates : List Scalar} (h : ∀ p ∈ predicates, p.Mapped) :
    ∀ p, conjunction predicates = some p → p.Mapped := by
  intro p hp
  cases predicates with
  | nil => cases hp
  | cons first rest =>
    cases hp
    obtain ⟨hfirst, hrest⟩ := List.forall_mem_cons.mp h
    refine List.foldlRecOn rest conjoin hfirst ?_
    intro all hall p hp
    have hpart := hrest p hp
    -- a conjunction has the mapping of what was joined last
    exact Scalar.mapped_iff.mpr ⟨hpart.root, by simp [conjoin, Scalar.children, hall, hpart]⟩

/-! ## One call -/

/-- What a call may make of the orderings of a statement. -/
inductive Reorders (q : Select) : Call → List OrderTerm → Prop where
  | kept {c : Call} : c ≠ .clearOrdering → Reorders q c q.orderings
  | replaced {term : OrderTerm} :
    q.limit = none → q.offset = none → Reorders q (.applyOrdering term) [term]
  | appended {term : OrderTerm} :
    term.expression ∉ q.orderings.map (·.expression) →
    Reorders q (.appendOrdering term) (q.orderings ++ [term])
  | cleared : Reorders q .clearOrdering []
  | reversed :
    q.limit = none → q.offset = none →
    Reorders q .reverseOrderings (q.orderings.map OrderTerm.reversed)

/-- What a call makes of a statement, refused or not. -/
structure Step (q : Select) (c : Call) (q' : Select) : Prop where
  predicate : q'.predicate = conjunction (q.predicate.toList ++ c.predicate?.toList)
  orderings : Reorders q c q'.orderings
  limit : q'.limit = q.limit.or c.limit?
  offset : q'.offset = q.offset.or c.offset?
  isDistinct : q'.isDistinct = true ↔ q.isDistinct = true ∨ c = .applyDistinct

/-- Two statements read the same documents, in the same order. -/
structure SameRows (q q' : Select) : Prop where
  predicate : q'.predicate = q.predicate
  orderings : q'.orderings = q.orderings
  limit : q'.limit = q.limit
  offset : q'.offset = q.offset
  isDistinct : q'.isDistinct = q.isDistinct

theorem SameRows.refl (q : Select) : SameRows q q := ⟨rfl, rfl, rfl, rfl, rfl⟩

/-- A call that asks for nothing else than there is. -/
theorem SameRows.step (h : SameRows q q') (hpredicate : c.predicate? = none)
    (hlimit : q.limit.or c.limit? = q.limit) (hoffset : q.offset.or c.offset? = q.offset)
    (hclear : c ≠ .clearOrdering) (hdistinct : c ≠ .applyDistinct) : Step q c q' where
  predicate := by simp [h.predicate, hpredicate]
  orderings := by
    rw [h.orderings]
    exact .kept hclear
  limit := h.limit.trans hlimit.symm
  offset := h.offset.trans hoffset.symm
  isDistinct := by simp [h.isDistinct, hdistinct]

theorem sameRows_addOutput (q : Select) (node : Node) (preferred : Option String) :
    SameRows q (q.addOutput node preferred).2 := by
  rw [(addOutput_added q node preferred).elsewhere]
  exact ⟨rfl, rfl, rfl, rfl, rfl⟩

theorem sameRows_applyProjection (q : Select) : SameRows q q.applyProjection := by
  unfold applyProjection
  split
  · exact .refl q
  · have houtputs := (addOutputs_extends q.mapping q).elsewhere
    dsimp only
    rw [houtputs]
    exact ⟨rfl, rfl, rfl, rfl, rfl⟩

/-- A predicate is joined to those before it. -/
theorem step_applyPredicate (q : Select) (predicate : Scalar) :
    Step q (.applyPredicate predicate) (q.applyPredicate predicate) := by
  by_cases htrue : predicate.isTrue
  · rw [applyPredicate, if_pos htrue]
    exact (SameRows.refl q).step (if_pos htrue) (Option.or_none) (Option.or_none) nofun nofun
  · have hasked : (Call.applyPredicate predicate).predicate? = some predicate := if_neg htrue
    rw [applyPredicate, if_neg htrue]
    cases hq : q.predicate with
    | none => exact ⟨by simp [hq, hasked, conjunction], .kept nofun, by simp [Call.limit?],
        by simp [Call.offset?], by simp⟩
    | some existing => exact ⟨by simp [hq, hasked, conjunction, conjoin], .kept nofun,
        by simp [Call.limit?], by simp [Call.offset?], by simp⟩

/-- A term is put behind the others, unless its expression is among them. -/
theorem step_appendOrdering (q : Select) (term : OrderTerm) :
    Step q (.appendOrdering term) (q.appendOrdering term) := by
  by_cases hmem : term.expression ∈ q.orderings.map (·.expression)
  · rw [appendOrdering, if_pos (by simpa using hmem)]
    exact (SameRows.refl q).step rfl Option.or_none Option.or_none nofun nofun
  · rw [appendOrdering, if_neg (by simpa using hmem)]
    exact ⟨by simp [Call.predicate?], .appended hmem, by simp [Call.limit?],
      by simp [Call.offset?], by simp⟩

theorem step_of_ok (h : c.result q = .ok q') : Step q c q' := by
  -- what only changes the output leaves all rows as they were
  cases c with
  | replaceMapping entries =>
    cases h
    exact SameRows.step ⟨rfl, rfl, rfl, rfl, rfl⟩ rfl Option.or_none Option.or_none nofun nofun
  | applyProjection =>
    cases h
    exact (sameRows_applyProjection q).step rfl Option.or_none Option.or_none nofun nofun
  | addOutput node preferred =>
    cases h
    exact (sameRows_addOutput q node preferred).step rfl Option.or_none Option.or_none nofun nofun
  | applyDistinct =>
    cases h
    exact ⟨by simp [applyDistinct, Call.predicate?], .kept nofun,
      by simp [applyDistinct, Call.limit?], by simp [applyDistinct, Call.offset?],
      by simp [applyDistinct]⟩
  | applyPredicate predicate =>
    cases h
    exact step_applyPredicate q predicate
  | applyLimit limit =>
    obtain ⟨hlimit, rfl⟩ := applyLimit_eq_ok_iff.mp h
    exact ⟨by simp [Call.predicate?], .kept nofun, by simp [hlimit, Call.limit?],
      by simp [Call.offset?], by simp⟩
  | applyOffset offset =>
    obtain ⟨hoffset, rfl⟩ := applyOffset_eq_ok_iff.mp h
    exact ⟨by simp [Call.predicate?], .kept nofun, by simp [Call.limit?],
      by simp [hoffset, Call.offset?], by simp⟩
  | applyOrdering term =>
    obtain ⟨_, hlimit, hoffset, rfl⟩ := applyOrdering_eq_ok_iff.mp h
    exact ⟨by simp [Call.predicate?], .replaced hlimit hoffset, by simp [Call.limit?],
      by simp [Call.offset?], by simp⟩
  | appendOrdering term =>
    cases h
    exact step_appendOrdering q term
  | clearOrdering =>
    cases h
    exact ⟨by simp [clearOrdering, Call.predicate?], .cleared, by simp [clearOrdering, Call.limit?],
      by simp [clearOrdering, Call.offset?], by simp [clearOrdering]⟩
  | reverseOrderings =>
    obtain ⟨hlimit, hoffset, rfl⟩ := reverseOrderings_eq_ok_iff.mp h
    exact ⟨by simp [Call.predicate?], .reversed hlimit hoffset, by simp [Call.limit?],
      by simp [Call.offset?], by simp⟩

/-- What a refused call asks for is there already, or it is not about the rows. -/
theorem step_of_error {e : QueryError} (h : c.result q = .error e) : Step q c q := by
  have hsame := SameRows.refl q
  cases c with
  | applyLimit limit =>
    -- a limit is refused only where there is one
    have hlimit : q.limit.isSome := by
      by_contra hnone
      cases (applyLimit_eq_ok_iff.mpr ⟨by simpa using hnone, rfl⟩).symm.trans h
    exact hsame.step rfl (Option.or_of_isSome hlimit) Option.or_none nofun nofun
  | applyOffset offset =>
    -- and an offset likewise
    have hoffset : q.offset.isSome := by
      by_contra hnone
      cases (applyOffset_eq_ok_iff.mpr ⟨by simpa using hnone, rfl⟩).symm.trans h
    exact hsame.step rfl Option.or_none (Option.or_of_isSome hoffset) nofun nofun
  | applyOrdering term => exact hsame.step rfl Option.or_none Option.or_none nofun nofun
  | reverseOrderings => exact hsame.step rfl Option.or_none Option.or_none nofun nofun
  | _ => cases h

/-- **Every call is a step**, refused or not. -/
theorem after_step (q : Select) (c : Call) : Step q c (q.after c) := by
  cases h : c.result q with
  | ok q' =>
    rw [after_of_ok h]
    exact step_of_ok h
  | error e =>
    rw [after_of_error h]
    exact step_of_error h

/-! ## Any number of calls -/

/-- What each call sets only where it is not set yet, the first call that asks for it sets. -/
theorem first_afterAll {part : Select → Option Scalar} {asked : Call → Option Scalar}
    (hstep : ∀ q c, part (q.after c) = (part q).or (asked c)) (calls : List Call) : ∀ q : Select,
    part (q.afterAll calls) = (part q).or (calls.findSome? asked) := by
  induction calls with
  | nil => exact fun q => Option.or_none.symm
  | cons c rest ih =>
    intro q
    have hrest := ih (q.after c)
    rw [hstep, Option.or_assoc] at hrest
    have hcons : (c :: rest).findSome? asked = (asked c).or (rest.findSome? asked) := by
      rw [List.findSome?_cons]
      cases asked c <;> rfl
    rw [hcons]
    exact hrest

theorem limit_afterAll (calls : List Call) (q : Select) :
    (q.afterAll calls).limit = q.limit.or (calls.findSome? Call.limit?) :=
  first_afterAll (fun q c => (after_step q c).limit) calls q

theorem offset_afterAll (calls : List Call) (q : Select) :
    (q.afterAll calls).offset = q.offset.or (calls.findSome? Call.offset?) :=
  first_afterAll (fun q c => (after_step q c).offset) calls q

theorem isDistinct_afterAll (calls : List Call) : ∀ q : Select,
    (q.afterAll calls).isDistinct = true ↔ q.isDistinct = true ∨ .applyDistinct ∈ calls := by
  induction calls with
  | nil => simp [afterAll]
  | cons c rest ih =>
    intro q
    have hrest := ih (q.after c)
    rw [(after_step q c).isDistinct, or_assoc] at hrest
    rw [List.mem_cons, @eq_comm _ _ c]
    exact hrest

theorem predicate_afterAll (calls : List Call) : ∀ q : Select, (q.afterAll calls).predicate
    = conjunction (q.predicate.toList ++ calls.filterMap Call.predicate?) := by
  induction calls with
  | nil => simp [afterAll]
  | cons c rest ih =>
    intro q
    have hrest := ih (q.after c)
    rw [(after_step q c).predicate, conjunction_append, List.append_assoc] at hrest
    have hcons : (c :: rest).filterMap Call.predicate?
        = c.predicate?.toList ++ rest.filterMap Call.predicate? := by
      rw [List.filterMap_cons]
      cases c.predicate? <;> rfl
    rw [hcons]
    exact hrest

/-- No call orders twice by one expression. -/
theorem Reorders.nodup {orderings : List OrderTerm} (h : Reorders q c orderings)
    (hq : (q.orderings.map (·.expression)).Nodup) : (orderings.map (·.expression)).Nodup := by
  cases h with
  | kept _ => exact hq
  | replaced _ _ => exact List.nodup_singleton _
  | appended hnew =>
    rw [List.map_append, List.map_singleton, ← List.concat_eq_append]
    exact hq.concat hnew
  | cleared => exact .nil
  | reversed _ _ =>
    -- turning a term round keeps its expression
    rw [List.map_map]
    exact hq

theorem nodup_afterAll (calls : List Call) : ∀ q : Select,
    (q.orderings.map (·.expression)).Nodup →
    ((q.afterAll calls).orderings.map (·.expression)).Nodup := by
  induction calls with
  | nil => exact fun q hq => hq
  | cons c rest ih => exact fun q hq => ih _ ((after_step q c).orderings.nodup hq)

/-- What holds of a statement that calls have made of a new one. -/
structure Made (calls : List Call) (q : Select) : Prop where
  /-- The predicate joins all that were applied, each to those before it. -/
  predicate : q.predicate = conjunction (calls.filterMap Call.predicate?)
  mapped : (∀ p ∈ calls.filterMap Call.predicate?, p.Mapped) →
    ∀ p, q.predicate = some p → p.Mapped
  /-- Nothing is ordered by twice. -/
  orderings : (q.orderings.map (·.expression)).Nodup
  /-- The first limit counts, whatever is called for later. -/
  limit : q.limit = calls.findSome? Call.limit?
  limited_iff : ∀ limit, (∃ q', (Call.applyLimit limit).result q = .ok q') ↔ q.limit = none
  limit_final : ∀ limit later, q.limit = some limit → (q.afterAll later).limit = some limit
  offset : q.offset = calls.findSome? Call.offset?
  skipped_iff : ∀ offset, (∃ q', (Call.applyOffset offset).result q = .ok q') ↔ q.offset = none
  offset_final : ∀ offset later, q.offset = some offset → (q.afterAll later).offset = some offset
  isDistinct : q.isDistinct = true ↔ .applyDistinct ∈ calls
  ordered_iff : ∀ term, (∃ q', (Call.applyOrdering term).result q = .ok q') ↔
    q.isDistinct = false ∧ q.limit = none ∧ q.offset = none
  reversed_iff : (∃ q', Call.reverseOrderings.result q = .ok q') ↔
    q.limit = none ∧ q.offset = none
  /-- In place, calls make the same statements. -/
  edited : ∀ (c : Call) (q' : Select), c.edit.run q = .ok () q' ↔ c.result q = .ok q'
  /-- A call that is refused leaves the statement as it was. -/
  refused : ∀ (c : Call) (e : QueryError) (q' : Select),
    c.edit.run q = .error e q' → c.result q = .error e ∧ q' = q

/-- **Calls keep a statement in order.** Whatever is called for, in whatever order, and whether or
not it is refused: the predicate is the conjunction of all that were applied, limit and offset are
set once, orderings are told apart by their expressions, and nothing is refused without reason or
half done. -/
theorem calls_keep_order {s : Schema} {entityType : String} {start : Select}
    (hnew : ofType s entityType = .ok start) (calls : List Call) :
    Made calls (start.afterAll calls) := by
  obtain ⟨collection, _, hstart⟩ := Except.bind_eq_ok_iff.mp hnew
  have hstart := Except.pure_eq_ok_iff.mp hstart
  have hpredicate := predicate_afterAll calls start
  have hlimit := limit_afterAll calls start
  have hoffset := offset_afterAll calls start
  have hdistinct := isDistinct_afterAll calls start
  have hnodup := nodup_afterAll calls start
  -- a new statement has none of these parts
  rw [← hstart] at hpredicate hlimit hoffset hdistinct hnodup ⊢
  constructor
  case predicate => simpa using hpredicate
  case mapped =>
    intro hmapped
    rw [hpredicate]
    exact mapped_conjunction (by simpa using hmapped)
  case orderings => exact hnodup .nil
  case limit => simpa using hlimit
  case limited_iff =>
    intro limit
    simp only [Call.result, applyLimit_eq_ok_iff, exists_and_left, exists_eq, and_true]
  case limit_final =>
    intro limit later h
    rw [limit_afterAll, h, Option.some_or]
  case offset => simpa using hoffset
  case skipped_iff =>
    intro offset
    simp only [Call.result, applyOffset_eq_ok_iff, exists_and_left, exists_eq, and_true]
  case offset_final =>
    intro offset later h
    rw [offset_afterAll, h, Option.some_or]
  case isDistinct => simpa using hdistinct
  case ordered_iff =>
    intro term
    simp only [Call.result, applyOrdering_eq_ok_iff, exists_and_left, exists_eq, and_true]
  case reversed_iff =>
    simp only [Call.result, reverseOrderings_eq_ok_iff, exists_and_left, exists_eq, and_true]
  case edited => exact fun c _ => c.edit_eq_ok_iff
  case refused => exact fun c _ _ => c.edit_eq_error

/-- A parameter that is true or false. -/
def whether (name : String) : Scalar := .parameter name .bool Scalar.boolMapping

/-- A number of rows. -/
def rowsOf (n : Int) : Scalar := .constant (.int n) .int32 (some ⟨.int32⟩)

/-- Calls for a page, of which the second limit and the reversal are refused, and the second
ordering and the literal are passed over. -/
def pageCalls : List Call :=
  [.applyOrdering ⟨whether "old", true⟩, .appendOrdering ⟨whether "old", false⟩,
    .applyPredicate (whether "old"), .applyPredicate (.constant (.bool true) .bool none),
    .applyPredicate (whether "near"), .applyLimit (rowsOf 10), .applyLimit (rowsOf 5),
    .reverseOrderings]

theorem calls_keep_order_page :
    ofType people "Person" = .ok allPeople.select
      ∧ (allPeople.select.afterAll pageCalls).predicate
        = some (conjoin (whether "old") (whether "near"))
      ∧ (allPeople.select.afterAll pageCalls).orderings = [⟨whether "old", true⟩]
      ∧ Made pageCalls (allPeople.select.afterAll pageCalls) := by
  have hnew : ofType people "Person" = .ok allPeople.select := rfl
  exact ⟨hnew, by decide, by decide, calls_keep_order hnew pageCalls⟩

end Select

end Odm
