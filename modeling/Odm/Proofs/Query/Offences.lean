import Odm.Proofs.Query.Verification
import Odm.Query.FindPlan

/-!
# What plans are refused for

Making a plan of a statement fails for what is in the statement: a scalar for which the store has no
operator, a parameter without a value, an ordering by something else than a field, a count that is
none. `offences` lists all of it in the order in which a plan is put together, and inside a scalar
each node before its parts and the parts from left to right. Every step of the way fails with the
first offence that it meets and succeeds where it meets none, which `Except.Blames` says of a
computation, so that a plan is refused for the first offence of all and for nothing else.

One offence does not come from translation. A property without an element is bound to no field
unless the client is to deliver it, so a field without a name is in no scalar that a host
expression is translated to, unless an embedded part of the query or a rule brings one along.
-/

namespace Odm

namespace Scalar

/-! ## Nodes in order -/

mutual

/-- The nodes of a scalar, each before its parts, and the parts from left to right. -/
def nodes : Scalar → List Scalar
  | .field f => [.field f]
  | .constant value type m => [.constant value type m]
  | .parameter name type m => [.parameter name type m]
  | .binary op left right type m => .binary op left right type m :: (left.nodes ++ right.nodes)
  | .unary op operand type m => .unary op operand type m :: operand.nodes
  | .conditional test ifTrue ifFalse m =>
    .conditional test ifTrue ifFalse m :: (test.nodes ++ (ifTrue.nodes ++ ifFalse.nodes))
  | .function name arguments type m => .function name arguments type m :: nodesOf arguments
  | .within item values negated m => .within item values negated m :: (item.nodes ++ values.nodes)

/-- The nodes of scalars, one scalar after the other. -/
def nodesOf : List Scalar → List Scalar
  | [] => []
  | s :: rest => s.nodes ++ nodesOf rest

end

theorem nodesOf_eq (xs : List Scalar) : nodesOf xs = xs.flatMap nodes := by
  induction xs with
  | nil => rw [nodesOf, List.flatMap_nil]
  | cons x rest ih => rw [nodesOf, ih, List.flatMap_cons]

theorem nodes_eq (s : Scalar) : s.nodes = s :: s.children.flatMap nodes := by
  cases s <;> simp [nodes, children, nodesOf_eq]

/-- What is gathered from nodes comes from the scalar itself and then from its parts. -/
theorem filterMap_nodes {β : Type} (f : Scalar → Option β) (s : Scalar) : s.nodes.filterMap f
    = (f s).toList ++ s.children.flatMap fun x => x.nodes.filterMap f := by
  rw [nodes_eq, List.filterMap_cons, List.filterMap_flatMap]
  cases f s <;> rfl

theorem mem_nodes_iff {s x : Scalar} : x ∈ s.nodes ↔ s.Subnode x := by
  rw [nodes_eq, List.mem_cons, List.mem_flatMap]
  constructor
  · rintro (rfl | ⟨y, hy, hx⟩)
    · exact .self
    · exact .of_child hy (mem_nodes_iff.mp hx)
  · intro h
    rcases h.eq_or_child with rfl | ⟨y, hy, hx⟩
    · exact .inl rfl
    · exact .inr ⟨y, hy, mem_nodes_iff.mpr hx⟩
termination_by sizeOf s
decreasing_by all_goals exact sizeOf_child_lt hy

/-! ## Offences in a scalar -/

/-- Every field has a name. -/
def Named (s : Scalar) : Prop := ∀ x, s.Subnode x → ∀ f, x = .field f → f.name ≠ ""

/-- What a scalar has to be for a document store to compute it. -/
structure Renderable (parameters : Parameters) (s : Scalar) : Prop where
  named : s.Named
  bound : ∀ name type m, s.Subnode (.parameter name type m) → parameters.contains name
  supported : ∀ op left right type m, s.Subnode (.binary op left right type m) →
    op ≠ .coalesce ∧ op ≠ .exclusiveOr ∧ (op = .and ∨ op = .or → type = .bool)

/-- What is wrong with a node, apart from its parts. -/
def offence? (parameters : Parameters) (s : Scalar) : Option QueryError :=
  match s with
  | .field f => if f.name = "" then some (.unsupportedFilter f.text) else none
  | .parameter name _ _ =>
    if parameters.contains name then none else some (.unboundParameter name)
  | .binary op _ _ type _ =>
    if (op.operator? type).isSome then none else some (.unsupportedFilter s.text)
  | _ => none

/-- What is wrong with a scalar, from left to right. -/
def offences (parameters : Parameters) (s : Scalar) : List QueryError :=
  s.nodes.filterMap (offence? parameters)

variable {parameters : Parameters}

theorem offences_eq (s : Scalar) : s.offences parameters
    = (s.offence? parameters).toList ++ s.children.flatMap (offences parameters) :=
  filterMap_nodes (offence? parameters) s

end Scalar

/-- The document store has operators for all others. -/
theorem BinaryOp.isSome_operator?_iff {op : BinaryOp} {type : HostType} :
    (op.operator? type).isSome
      ↔ op ≠ .coalesce ∧ op ≠ .exclusiveOr ∧ (op = .and ∨ op = .or → type = .bool) := by
  cases op with
  | and => by_cases h : type = .bool <;> simp [operator?, h]
  | or => by_cases h : type = .bool <;> simp [operator?, h]
  | _ => simp [operator?]

namespace Scalar

variable {parameters : Parameters}

/-- **A scalar without offences is one that the store can compute.** -/
theorem offences_eq_nil_iff {s : Scalar} :
    s.offences parameters = [] ↔ s.Renderable parameters := by
  rw [offences, List.filterMap_eq_nil_iff]
  constructor
  · intro h
    -- each condition is read off from the node that would offend
    have hnode : ∀ x, s.Subnode x → x.offence? parameters = none :=
      fun x hx => h x (mem_nodes_iff.mpr hx)
    constructor
    case named =>
      rintro x hx f rfl hname
      simpa [offence?, hname] using hnode _ hx
    case bound =>
      intro name type m hx
      simpa [offence?] using hnode _ hx
    case supported =>
      intro op left right type m hx
      refine BinaryOp.isSome_operator?_iff.mp (Option.isSome_iff_ne_none.mpr ?_)
      simpa [offence?] using hnode _ hx
  · intro h x hx
    have hx := mem_nodes_iff.mp hx
    -- no kind of node can offend in more than one way
    cases x with
    | field f => exact if_neg (h.named _ hx f rfl)
    | parameter name type m => exact if_pos (h.bound name type m hx)
    | binary op left right type m =>
      exact if_pos (BinaryOp.isSome_operator?_iff.mpr (h.supported op left right type m hx))
    | _ => rfl

/-- Looking up a parameter fails just where it has no value. -/
theorem value_blames (name : String) (type : HostType) (m : Option Mapping) :
    (parameters.value name).Blames
      (offence? parameters (.parameter name type m)).toList := by
  rw [Parameters.value, offence?, Table.contains]
  cases parameters.get? name with
  | none => exact .error _ []
  | some v => exact .ok v

mutual

/-- **A scalar is rendered, or its first offence is reported.** -/
theorem render_blames : (s : Scalar) → (s.render parameters).Blames (s.offences parameters)
  | .field f => by
    rw [render, offences_eq, offence?]
    by_cases hname : f.name = ""
    · rw [if_pos (by simpa using hname), if_pos hname]
      exact .error _ _
    · rw [if_neg (by simpa using hname), if_neg hname]
      exact .ok _
  | .constant value type m => by
    rw [render, offences_eq]
    exact .ok _
  | .parameter name type m => by
    rw [render, offences_eq, children, List.flatMap_nil, List.append_nil]
    exact (value_blames name type m).andThen
  | .binary op left right type m => by
    -- the operator is looked at before the operands are
    rw [render, offences_eq, offence?, children, List.flatMap_cons, List.flatMap_singleton]
    cases op.operator? type with
    | none => exact .error _ _
    | some operator => exact (render_blames left).bind fun _ _ => (render_blames right).andThen
  | .unary op operand type m => by
    rw [render, offences_eq, children, List.flatMap_singleton]
    cases op with
    | not => exact (render_blames operand).andThen
    | negate => exact (render_blames operand).andThen
    | convert => exact (render_blames operand).andThen
  | .conditional test ifTrue ifFalse m => by
    rw [render, offences_eq, children, List.flatMap_cons, List.flatMap_cons,
      List.flatMap_singleton]
    exact (render_blames test).bind fun _ _ =>
      (render_blames ifTrue).bind fun _ _ => (render_blames ifFalse).andThen
  | .function name arguments type m => by
    rw [render, offences_eq, children]
    exact (renderAll_blames arguments).andThen
  | .within item values negated m => by
    rw [render, offences_eq, children, List.flatMap_cons, List.flatMap_singleton]
    exact (render_blames item).bind fun _ _ => (render_blames values).andThen

theorem renderAll_blames : (xs : List Scalar) →
    (renderAll parameters xs).Blames (xs.flatMap (offences parameters))
  | [] => by
    rw [renderAll]
    exact .ok []
  | x :: rest => by
    rw [renderAll, List.flatMap_cons]
    exact (render_blames x).bind fun _ _ => (renderAll_blames rest).andThen

end

end Scalar

/-! ## Offences in a statement -/

/-- A value is a count just if it is a whole number from zero up that fits into 64 bits. -/
theorem Value.isSome_toCount?_iff {v : Value} :
    v.toCount?.isSome ↔ ∃ n : Nat, n ≤ maxCount ∧ v = .int n := by
  constructor
  · intro h
    unfold toCount? at h
    split at h
    · rename_i n
      -- whole numbers only, and of those neither negative ones nor larger ones
      split at h
      · rename_i hn
        obtain ⟨hnonneg, hmax⟩ := hn
        refine ⟨n.toNat, by omega, ?_⟩
        rw [Value.int, Int.toNat_of_nonneg hnonneg]
      · cases h
    · cases h
  · rintro ⟨n, hn, rfl⟩
    rw [Value.int, toCount?, if_pos ⟨Int.natCast_nonneg n, by omega⟩]
    rfl

namespace FindPlan

variable {parameters : Parameters}

/-- A scalar that says how many rows: a count, or a parameter that has one for a value. -/
inductive IsCount (parameters : Parameters) : Scalar → Prop where
  | constant {n : Nat} {type : HostType} {m : Option Mapping} :
    n ≤ Value.maxCount → IsCount parameters (.constant (.int n) type m)
  | parameter {name : String} {n : Nat} {type : HostType} {m : Option Mapping} :
    parameters.get? name = some (.int n) → n ≤ Value.maxCount →
    IsCount parameters (.parameter name type m)

/-- What a statement has to be for a plan to be made of it. -/
structure Plannable (parameters : Parameters) (q : Select) : Prop where
  predicate : ∀ s, q.predicate = some s → s.Renderable parameters
  orderings : ∀ term ∈ q.orderings, ∃ f, term.expression = .field f ∧ f.name ≠ ""
  output : ∀ field ∈ q.output, ∀ s, field.node = .scalar s → s.Renderable parameters
  offset : ∀ s, q.offset = some s → IsCount parameters s
  limit : ∀ s, q.limit = some s → IsCount parameters s

/-- What is wrong with an ordering term. -/
def orderingOffence? (term : OrderTerm) : Option QueryError :=
  match term.expression with
  | .field f => if f.name = "" then some (.unsupportedOrdering f.text) else none
  | other => some (.unsupportedOrdering other.text)

/-- What is wrong with an output field. Only scalars are computed for one. -/
def outputOffences (parameters : Parameters) (field : OutputField) : List QueryError :=
  match field.node with
  | .scalar s => s.offences parameters
  | _ => []

/-- What is wrong with a value that is taken for a count. -/
def countOffence? (v : Value) : Option QueryError :=
  if v.toCount?.isSome then none else some (.invalidPagingValue v.text)

/-- What is wrong with a paging node. -/
def pagingOffence? (parameters : Parameters) (s : Scalar) : Option QueryError :=
  match s with
  | .constant v _ _ => countOffence? v
  | .parameter name _ _ =>
    match parameters.get? name with
    | none => some (.unboundParameter name)
    | some v => countOffence? v
  | _ => some (.invalidPagingValue s.text)

/-- What is wrong with a statement, in the order in which a plan is put together. -/
def offences (parameters : Parameters) (q : Select) : List QueryError :=
  q.predicate.toList.flatMap (Scalar.offences parameters)
    ++ (q.orderings.filterMap orderingOffence?
    ++ (q.output.flatMap (outputOffences parameters)
    ++ (q.offset.toList.filterMap (pagingOffence? parameters)
    ++ q.limit.toList.filterMap (pagingOffence? parameters))))

/-! ## Nothing is wrong -/

theorem orderingOffence?_eq_none_iff {term : OrderTerm} :
    orderingOffence? term = none ↔ ∃ f, term.expression = .field f ∧ f.name ≠ "" := by
  unfold orderingOffence?
  cases term.expression with
  | field f => simp
  | _ => simp

theorem countOffence?_eq_none_iff {v : Value} :
    countOffence? v = none ↔ ∃ n : Nat, n ≤ Value.maxCount ∧ v = .int n := by
  rw [← Value.isSome_toCount?_iff, countOffence?]
  simp [Option.isSome_iff_ne_none]

theorem pagingOffence?_eq_none_iff {s : Scalar} :
    pagingOffence? parameters s = none ↔ IsCount parameters s := by
  constructor
  · intro h
    unfold pagingOffence? at h
    -- a count is a constant or a parameter with a value
    split at h
    · obtain ⟨n, hn, rfl⟩ := countOffence?_eq_none_iff.mp h
      exact .constant hn
    · split at h
      · cases h
      · rename_i hv
        obtain ⟨n, hn, rfl⟩ := countOffence?_eq_none_iff.mp h
        exact .parameter hv hn
    · cases h
  · rintro (hn | ⟨hv, hn⟩)
    · exact countOffence?_eq_none_iff.mpr ⟨_, hn, rfl⟩
    · rw [pagingOffence?, hv]
      exact countOffence?_eq_none_iff.mpr ⟨_, hn, rfl⟩

theorem outputOffences_eq_nil_iff {field : OutputField} : outputOffences parameters field = []
    ↔ ∀ s, field.node = .scalar s → s.Renderable parameters := by
  unfold outputOffences
  cases field.node with
  | scalar s => simp [Scalar.offences_eq_nil_iff]
  | entity shape => simp
  | array shape => simp

/-- **A statement without offences is one that has a plan.** -/
theorem offences_eq_nil_iff {q : Select} : offences parameters q = [] ↔ Plannable parameters q := by
  simp only [offences, List.append_eq_nil_iff, List.flatMap_eq_nil_iff,
    List.filterMap_eq_nil_iff, Option.mem_toList, Scalar.offences_eq_nil_iff,
    orderingOffence?_eq_none_iff, outputOffences_eq_nil_iff, pagingOffence?_eq_none_iff]
  constructor
  · rintro ⟨hpredicate, horderings, houtput, hoffset, hlimit⟩
    exact ⟨hpredicate, horderings, houtput, hoffset, hlimit⟩
  · rintro ⟨hpredicate, horderings, houtput, hoffset, hlimit⟩
    exact ⟨hpredicate, horderings, houtput, hoffset, hlimit⟩

/-! ## Parts of a plan -/

theorem predicateFilter_blames (q : Select) : (predicateFilter parameters q).Blames
    (q.predicate.toList.flatMap (Scalar.offences parameters)) := by
  unfold predicateFilter
  cases q.predicate with
  | none => exact .ok _
  | some predicate =>
    rw [Option.toList_some, List.flatMap_singleton]
    exact (Scalar.render_blames predicate).andThen

theorem sortKey_blames (term : OrderTerm) :
    (sortKey term).Blames (orderingOffence? term).toList := by
  unfold sortKey orderingOffence?
  cases term.expression with
  | field f =>
    dsimp only
    by_cases hname : f.name = ""
    · rw [if_pos (by simpa using hname), if_pos hname]
      exact .error _ []
    · rw [if_neg (by simpa using hname), if_neg hname]
      exact .ok _
  | _ => exact .error _ []

theorem outputValue_blames (field : OutputField) :
    (outputValue parameters field.node).Blames (outputOffences parameters field) := by
  unfold outputOffences
  cases field.node with
  | scalar s => exact Scalar.render_blames s
  | entity shape =>
    rw [outputValue]
    split <;> exact .ok _
  | array shape => exact .ok _

/-- Where the output is the whole document there is no scalar in it. -/
theorem outputOffences_of_isWholeDocument {output : List OutputField} (h : isWholeDocument output) :
    output.flatMap (outputOffences parameters) = [] := by
  unfold isWholeDocument at h
  split at h
  · rfl
  · rfl
  · cases h

theorem projection?_blames (q : Select) : (projection? parameters q).Blames
    (q.output.flatMap (outputOffences parameters)) := by
  unfold projection?
  split
  · rename_i hwhole
    rw [outputOffences_of_isWholeDocument hwhole]
    exact .ok _
  · refine Except.Blames.andThen ?_
    exact Except.Blames.foldlM (fun _ field _ => (outputValue_blames field).andThen) []

theorem count_blames (v : Value) : (count v).Blames (countOffence? v).toList := by
  unfold count countOffence?
  cases v.toCount? with
  | none => exact .error _ []
  | some n => exact .ok n

theorem pagingCount_blames (s : Scalar) :
    (pagingCount parameters s).Blames (pagingOffence? parameters s).toList := by
  cases s with
  | constant value type m => exact count_blames value
  | parameter name type m =>
    rw [pagingCount, Parameters.value, pagingOffence?]
    cases parameters.get? name with
    | none => exact .error _ []
    | some v => exact count_blames v
  | _ => exact .error _ []

theorem pagingCount?_blames (s : Option Scalar) : (pagingCount? parameters s).Blames
    (s.toList.filterMap (pagingOffence? parameters)) := by
  cases s with
  | none => exact .ok _
  | some s =>
    rw [pagingCount?, Option.toList_some, List.filterMap_cons]
    have h : (pagingCount parameters s).Blames (pagingOffence? parameters s).toList :=
      pagingCount_blames s
    cases hs : pagingOffence? parameters s with
    | none =>
      rw [hs] at h
      exact h.andThen
    | some e =>
      rw [hs] at h
      exact h.andThen

/-- **A plan is made, or the first offence is reported.** -/
theorem ofSelect_blames (s : Schema) (q : Select) :
    (ofSelect s parameters q).Blames (offences parameters q) := by
  have horderings : (q.orderings.mapM sortKey).Blames (q.orderings.filterMap orderingOffence?) := by
    rw [List.filterMap_eq_flatMap_toList]
    exact .mapM fun term _ => sortKey_blames term
  refine (predicateFilter_blames q).bind fun _ _ => ?_
  refine horderings.bind fun _ _ => ?_
  refine (projection?_blames q).bind fun _ _ => ?_
  refine (pagingCount?_blames q.offset).bind fun _ _ => ?_
  exact (pagingCount?_blames q.limit).andThen

end FindPlan

/-! ## Fields without a name -/

theorem Scalar.lasting_named : Lasting fun s => ∀ f, s = .field f → f.name ≠ "" where
  literal _ _ := nofun
  placeholder _ _ := nofun
  field f hf := by
    rintro f' hf'
    cases hf'
    exact hf
  remapped f m hf := by
    rintro f' hf'
    cases hf'
    exact hf f rfl
  joined h := by
    rintro f rfl
    cases h.isField

theorem Select.position_named (i : Nat) : (position i).Holds Scalar.Named :=
  Node.holds_scalar (Scalar.Lasting.of_leaf nofun rfl)

/-- **Translation makes fields with names only.** -/
theorem Translator.translate_named {t : Translator} {q : Select} {e : HostExpr} {s : Scalar}
    (hmethods : ∀ rule ∈ t.methods, rule.Keeps Scalar.Named)
    (hmembers : ∀ rule ∈ t.members, rule.Keeps Scalar.Named)
    (hq : ∀ entry ∈ q.mapping, entry.2.Holds Scalar.Named)
    (he : ∀ node ∈ e.embedded, node.Holds Scalar.Named)
    (h : t.translate q e = .ok (some s)) : s.Named := by
  have hkeeps : Keeps Scalar.Named t q :=
    ⟨Scalar.lasting_named.hereditary, hmethods, hmembers, hq⟩
  obtain ⟨x, hx, hfinish⟩ := exists_visit_of_translate h
  have hnamed : x.Named := (visit_keeps hkeeps e he false).yields _ hx x rfl
  exact Scalar.lasting_named.applyMapping hnamed (applyMapping_of_finish hfinish)

/-- A query projects no field without a name, whatever operators were applied to it, and whether or
not it is finished. -/
theorem ShapedQuery.Operated.named {t : Translator} {entityType : String}
    {created query : ShapedQuery} (hcreate : ShapedQuery.create t entityType = .ok created)
    (h : ShapedQuery.Operated t created query) :
    (∀ entry ∈ query.select.mapping, entry.2.Holds Scalar.Named)
      ∧ ∀ entry ∈ query.finish.mapping, entry.2.Holds Scalar.Named :=
  ⟨h.holds hcreate, Select.applyProjection_holds Select.position_named (h.holds hcreate)⟩

open FindPlan Scalar in
/-- **A plan is refused for its first offence and for nothing else.** Just where all parts of a
statement are as they have to be there is a plan; otherwise the error is that of the first part
that is not, in the order predicate, orderings, output, offset and limit, and in a scalar from left
to right. A field without a name, which is one of the offences, is in no translation, unless an
embedded part, a rule or the statement itself brings one along, and no query operator makes a
statement do that. -/
theorem plan_refused_for_offence (s : Schema) (parameters : Parameters) (q : Select) :
    ((∃ plan, ofSelect s parameters q = .ok plan) ↔ Plannable parameters q)
      ∧ (∀ e, ofSelect s parameters q = .error e ↔ (offences parameters q).head? = some e)
      ∧ (∀ (t : Translator) (e : HostExpr) (x : Scalar), (∀ rule ∈ t.methods, rule.Keeps Named) →
        (∀ rule ∈ t.members, rule.Keeps Named) → (∀ node ∈ e.embedded, node.Holds Named) →
        (∀ entry ∈ q.mapping, entry.2.Holds Named) → t.translate q e = .ok (some x) → x.Named)
      ∧ ∀ (t : Translator) (entityType : String) (created query : ShapedQuery),
        ShapedQuery.create t entityType = .ok created → ShapedQuery.Operated t created query →
        q = query.select ∨ q = query.finish → ∀ entry ∈ q.mapping, entry.2.Holds Named := by
  have hblames : (ofSelect s parameters q).Blames (offences parameters q) := ofSelect_blames s q
  refine ⟨?_, fun e => hblames.eq_error_iff, ?_, ?_⟩
  · rw [hblames.exists_ok_iff, FindPlan.offences_eq_nil_iff]
  · intro t e x hmethods hmembers he hq h
    exact Translator.translate_named hmethods hmembers hq he h
  · intro t entityType created query hcreate hquery hq
    obtain ⟨hselect, hfinish⟩ := hquery.named hcreate
    rcases hq with rfl | rfl
    · exact hselect
    · exact hfinish

/-- Whether anyone is asked for. -/
def isAsked : HostExpr := .lambda [("p", .entity "Person")] (.parameter "asked" .bool)

theorem plan_refused_for_offence_asked : ∃ asked page x,
    allPeople.filter { schema := people } isAsked = .ok asked
      ∧ asked.take { schema := people } (.parameter "size" .int32) = .ok page
      ∧ FindPlan.Plannable [("asked", .bool true), ("size", .int 3)] page.select
      ∧ (FindPlan.offences [("size", .int (-3))] page.select).head?
        = some (.unboundParameter "asked")
      ∧ Translator.translate { schema := people } page.select firstInCity = .ok (some x)
      ∧ x.Named := by
  obtain ⟨asked, page, hasked, hpage, hplan, herror, h⟩ : ∃ asked page,
      allPeople.filter { schema := people } isAsked = .ok asked
        ∧ asked.take { schema := people } (.parameter "size" .int32) = .ok page
        ∧ (∃ plan, FindPlan.ofSelect people [("asked", .bool true), ("size", .int 3)] page.select
          = .ok plan)
        ∧ FindPlan.ofSelect people [("size", .int (-3))] page.select
          = .error (.unboundParameter "asked")
        ∧ ∃ x, Translator.translate { schema := people } page.select firstInCity = .ok (some x) :=
    ⟨_, _, rfl, rfl, ⟨_, rfl⟩, rfl, _, rfl⟩
  obtain ⟨x, hx⟩ := h
  -- both plans are of one query, with different values for its parameters
  have hcreate : ShapedQuery.create { schema := people } "Person" = .ok allPeople := rfl
  have hquery : ShapedQuery.Operated { schema := people } allPeople page :=
    .take (.filter .created hasked) hpage
  obtain ⟨hplanned, _, hnamed, hmapping⟩ :=
    plan_refused_for_offence people [("asked", .bool true), ("size", .int 3)] page.select
  obtain ⟨_, hrefused, _⟩ := plan_refused_for_offence people [("size", .int (-3))] page.select
  refine ⟨asked, page, x, hasked, hpage, hplanned.mp hplan, (hrefused _).mp herror, hx, ?_⟩
  exact hnamed { schema := people } firstInCity x nofun nofun (List.forall_mem_nil _)
    (hmapping { schema := people } "Person" allPeople page hcreate hquery (.inl rfl)) hx

end Odm
