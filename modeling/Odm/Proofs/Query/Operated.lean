import Odm.Proofs.Query.Translation

/-!
# Queries under operators

A query is created for an entity type and then changed by operators, each of which may fail. The
operators change which documents are read and in what order. They leave alone what the query
starts from: the entity that its shaper stands for, and what is found at each output path.
-/

namespace Odm

namespace Select

/-! ## What is refused -/

theorem applyLimit_eq_ok_iff {q q' : Select} {limit : Scalar} :
    q.applyLimit limit = .ok q' ↔ q.limit = none ∧ q' = { q with limit := some limit } := by
  unfold applyLimit
  cases q.limit <;> simp [eq_comm]

theorem applyOffset_eq_ok_iff {q q' : Select} {offset : Scalar} :
    q.applyOffset offset = .ok q' ↔ q.offset = none ∧ q' = { q with offset := some offset } := by
  unfold applyOffset
  cases q.offset <;> simp [eq_comm]

theorem applyOrdering_eq_ok_iff {q q' : Select} {term : OrderTerm} :
    q.applyOrdering term = .ok q' ↔ q.isDistinct = false ∧ q.limit = none ∧ q.offset = none
      ∧ q' = { q with orderings := [term] } := by
  unfold applyOrdering
  cases q.isDistinct <;> cases q.limit <;> cases q.offset <;> simp [eq_comm]

theorem reverseOrderings_eq_ok_iff {q q' : Select} :
    q.reverseOrderings = .ok q' ↔ q.limit = none ∧ q.offset = none
      ∧ q' = { q with orderings := q.orderings.map OrderTerm.reversed } := by
  unfold reverseOrderings
  cases q.limit <;> cases q.offset <;> simp [eq_comm]

end Select

namespace ShapedQuery

/-! ## Operators -/

/-- The queries that operators make of a query. -/
inductive Operated (t : Translator) (created : ShapedQuery) : ShapedQuery → Prop where
  | created : Operated t created created
  | filter {query query' : ShapedQuery} {predicate : HostExpr} :
    Operated t created query → query.filter t predicate = .ok query' → Operated t created query'
  | orderBy {query query' : ShapedQuery} {key : HostExpr} {ascending : Bool} :
    Operated t created query → query.orderBy t key ascending = .ok query' →
    Operated t created query'
  | thenBy {query query' : ShapedQuery} {key : HostExpr} {ascending : Bool} :
    Operated t created query → query.thenBy t key ascending = .ok query' →
    Operated t created query'
  | take {query query' : ShapedQuery} {count : HostExpr} :
    Operated t created query → query.take t count = .ok query' → Operated t created query'
  | skip {query query' : ShapedQuery} {count : HostExpr} :
    Operated t created query → query.skip t count = .ok query' → Operated t created query'
  | distinct {query : ShapedQuery} :
    Operated t created query → Operated t created query.distinct
  | reverse {query query' : ShapedQuery} :
    Operated t created query → query.reverse = .ok query' → Operated t created query'
  | first {query query' : ShapedQuery} {predicate : Option HostExpr} :
    Operated t created query → query.first t predicate = .ok query' → Operated t created query'
  | single {query query' : ShapedQuery} {predicate : Option HostExpr} :
    Operated t created query → query.single t predicate = .ok query' →
    Operated t created query'

/-- Two queries start from the same: their shapers and mappings agree. -/
structure SameStart (query query' : ShapedQuery) : Prop where
  shaper : query'.shaper = query.shaper
  mapping : query'.select.mapping = query.select.mapping
  entityType : query'.select.entityType = query.select.entityType

theorem SameStart.refl (query : ShapedQuery) : SameStart query query := ⟨rfl, rfl, rfl⟩

theorem SameStart.trans {query query' query'' : ShapedQuery} (h : SameStart query query')
    (h' : SameStart query' query'') : SameStart query query'' :=
  ⟨h'.shaper.trans h.shaper, h'.mapping.trans h.mapping, h'.entityType.trans h.entityType⟩

variable {t : Translator} {query query' : ShapedQuery}

/-! ## One operator -/

theorem filter_sameStart {predicate : HostExpr} (h : query.filter t predicate = .ok query') :
    SameStart query query' := by
  obtain ⟨s, _, h⟩ := Except.bind_eq_ok_iff.mp h
  cases Except.pure_eq_ok_iff.mp h
  unfold withSelect Select.applyPredicate
  split
  · exact .refl query
  · split <;> exact ⟨rfl, rfl, rfl⟩

theorem orderBy_sameStart {key : HostExpr} {ascending : Bool}
    (h : query.orderBy t key ascending = .ok query') : SameStart query query' := by
  obtain ⟨s, _, h⟩ := Except.bind_eq_ok_iff.mp h
  obtain ⟨select, hselect, h⟩ := Except.bind_eq_ok_iff.mp h
  cases Except.pure_eq_ok_iff.mp h
  obtain ⟨_, _, _, rfl⟩ := Select.applyOrdering_eq_ok_iff.mp hselect
  exact ⟨rfl, rfl, rfl⟩

theorem thenBy_sameStart {key : HostExpr} {ascending : Bool}
    (h : query.thenBy t key ascending = .ok query') : SameStart query query' := by
  obtain ⟨s, _, h⟩ := Except.bind_eq_ok_iff.mp h
  cases Except.pure_eq_ok_iff.mp h
  unfold withSelect Select.appendOrdering
  split <;> exact ⟨rfl, rfl, rfl⟩

theorem take_sameStart {count : HostExpr} (h : query.take t count = .ok query') :
    SameStart query query' := by
  obtain ⟨s, _, h⟩ := Except.bind_eq_ok_iff.mp h
  obtain ⟨select, hselect, h⟩ := Except.bind_eq_ok_iff.mp h
  cases Except.pure_eq_ok_iff.mp h
  obtain ⟨_, rfl⟩ := Select.applyLimit_eq_ok_iff.mp hselect
  exact ⟨rfl, rfl, rfl⟩

theorem skip_sameStart {count : HostExpr} (h : query.skip t count = .ok query') :
    SameStart query query' := by
  obtain ⟨s, _, h⟩ := Except.bind_eq_ok_iff.mp h
  obtain ⟨select, hselect, h⟩ := Except.bind_eq_ok_iff.mp h
  cases Except.pure_eq_ok_iff.mp h
  obtain ⟨_, rfl⟩ := Select.applyOffset_eq_ok_iff.mp hselect
  exact ⟨rfl, rfl, rfl⟩

theorem reverse_sameStart (h : query.reverse = .ok query') : SameStart query query' := by
  obtain ⟨select, hselect, h⟩ := Except.bind_eq_ok_iff.mp h
  cases Except.pure_eq_ok_iff.mp h
  obtain ⟨_, _, rfl⟩ := Select.reverseOrderings_eq_ok_iff.mp hselect
  exact ⟨rfl, rfl, rfl⟩

/-- So many results are taken of the query, or of those that satisfy the predicate. -/
theorem limitResults_eq_ok {predicate : Option HostExpr} {n : Nat}
    (h : query.limitResults t predicate n = .ok query') : ∃ filtered,
    (filtered = query ∨ ∃ p, query.filter t p = .ok filtered)
      ∧ filtered.take t (.constant (.int n) .int32) = .ok query' := by
  cases predicate with
  | none =>
    obtain ⟨_, hquery, htake⟩ := Except.bind_eq_ok_iff.mp h
    exact ⟨_, .inl (Except.pure_eq_ok_iff.mp hquery).symm, htake⟩
  | some p =>
    obtain ⟨filtered, hfiltered, htake⟩ := Except.bind_eq_ok_iff.mp h
    exact ⟨filtered, .inr ⟨p, hfiltered⟩, htake⟩

theorem limitResults_sameStart {predicate : Option HostExpr} {n : Nat}
    (h : query.limitResults t predicate n = .ok query') : SameStart query query' := by
  obtain ⟨filtered, rfl | ⟨p, hfiltered⟩, htake⟩ := limitResults_eq_ok h
  · exact take_sameStart htake
  · exact (filter_sameStart hfiltered).trans (take_sameStart htake)

/-! ## Any number of operators -/

/-- **Operators leave alone what a query starts from.** -/
theorem Operated.sameStart {created : ShapedQuery} (h : Operated t created query) :
    SameStart created query := by
  induction h with
  | created => exact .refl created
  | filter _ h ih => exact ih.trans (filter_sameStart h)
  | orderBy _ h ih => exact ih.trans (orderBy_sameStart h)
  | thenBy _ h ih => exact ih.trans (thenBy_sameStart h)
  | take _ h ih => exact ih.trans (take_sameStart h)
  | skip _ h ih => exact ih.trans (skip_sameStart h)
  | distinct _ ih => exact ih.trans ⟨rfl, rfl, rfl⟩
  | reverse _ h ih => exact ih.trans (reverse_sameStart h)
  | first _ h ih => exact ih.trans (limitResults_sameStart h)
  | single _ h ih => exact ih.trans (limitResults_sameStart h)

/-- A new query finds its entity at the root path and nothing else. -/
theorem create_mapping {entityType : String} (h : create t entityType = .ok query) :
    query.select.mapping = [(.root, .entity (.root query.select.entityType Select.rootAlias))] := by
  obtain ⟨found, collection, _, rfl⟩ := create_eq_ok h
  rfl

end ShapedQuery

end Odm
