import Odm.Proofs.Query.Offences
import Odm.Proofs.Query.Output

/-!
# Values of parameters stay literals

The values of parameters come from outside, and a document store takes a text that begins with a
dollar sign for a field and an object with such a name for an operator. What keeps a query from
being changed by a value is that a value never gets anywhere but under a `$literal`.

This is a statement about two runs, one for each choice of values. Both are compared with a third
one that has no values at all: `Scalar.template` renders a scalar with holes in place of the
values, and needs to know of the parameters only which of them have a value. Rendering is filling
the holes, so two renderings are fillings of one template, and they fail together, with one error.
The same goes for the filter and the projection of a plan.
-/

namespace Odm

/-! ## Templates -/

/-- A value with holes for the values of parameters. -/
inductive Template where
  | value (v : Value)
  /-- The hole for the value of a parameter. -/
  | given (name : String)
  | arr (items : List Template)
  | obj (fields : List (String × Template))

namespace Template

mutual

/-- The template with values in its holes, each of them under a `$literal`. -/
def fill (parameters : Parameters) : Template → Value
  | .value v => v
  | .given name => Value.literal ((parameters.get? name).getD .null)
  | .arr items => .arr (fillItems parameters items)
  | .obj fields => .obj (fillFields parameters fields)

def fillItems (parameters : Parameters) : List Template → List Value
  | [] => []
  | t :: rest => t.fill parameters :: fillItems parameters rest

def fillFields (parameters : Parameters) : List (String × Template) → List (String × Value)
  | [] => []
  | (name, t) :: rest => (name, t.fill parameters) :: fillFields parameters rest

end

mutual

/-- The parameters that the holes of a template are for, from left to right. -/
def names : Template → List String
  | .value _ => []
  | .given name => [name]
  | .arr items => namesOfItems items
  | .obj fields => namesOfFields fields

def namesOfItems : List Template → List String
  | [] => []
  | t :: rest => t.names ++ namesOfItems rest

def namesOfFields : List (String × Template) → List String
  | [] => []
  | (_, t) :: rest => t.names ++ namesOfFields rest

end

variable {parameters : Parameters}

theorem fillItems_eq (items : List Template) :
    fillItems parameters items = items.map (fill parameters) := by
  induction items with
  | nil => rw [fillItems, List.map_nil]
  | cons t rest ih => rw [fillItems, ih, List.map_cons]

theorem fillFields_eq (fields : List (String × Template)) :
    fillFields parameters fields = fields.map fun f => (f.1, f.2.fill parameters) := by
  induction fields with
  | nil => rw [fillFields, List.map_nil]
  | cons f rest ih => rw [fillFields, ih, List.map_cons]

theorem namesOfItems_eq (items : List Template) : namesOfItems items = items.flatMap names := by
  induction items with
  | nil => rw [namesOfItems, List.flatMap_nil]
  | cons t rest ih => rw [namesOfItems, ih, List.flatMap_cons]

theorem mem_namesOfFields {fields : List (String × Template)} {name : String}
    (h : name ∈ namesOfFields fields) : ∃ f ∈ fields, name ∈ f.2.names := by
  induction fields with
  | nil => cases h
  | cons f rest ih =>
    rcases List.mem_append.mp h with h | h
    · exact ⟨f, List.mem_cons_self, h⟩
    · obtain ⟨g, hg, h⟩ := ih h
      exact ⟨g, List.mem_cons_of_mem _ hg, h⟩

/-- An operator of the document store over operands with holes. -/
def operation (operator : String) (operands : List Template) : Template :=
  .obj [(operator, .arr operands)]

theorem fill_operation (parameters : Parameters) (operator : String) (operands : List Template) :
    (operation operator operands).fill parameters
      = .operation operator (operands.map (fill parameters)) := by
  simp only [operation, fill, fillFields, fillItems_eq, Value.operation]

theorem names_operation (operator : String) (operands : List Template) :
    (operation operator operands).names = operands.flatMap names := by
  simp only [operation, names, namesOfFields, namesOfItems_eq, List.append_nil]

end Template

/-! ## Scalars -/

namespace Scalar

mutual

/-- What rendering makes of a scalar without the values of parameters, where `bound` says which
parameters have one. -/
def template (bound : String → Bool) : Scalar → Except QueryError Template
  | .field f =>
    if f.name.isEmpty then .error (.unsupportedFilter f.text)
    else .ok (.value (.fieldPath f.path))
  | .constant value _ _ => .ok (.value value.literal)
  | .parameter name _ _ =>
    if bound name then .ok (.given name) else .error (.unboundParameter name)
  | .binary op left right type m =>
    match op.operator? type with
    | none => .error (.unsupportedFilter (text (.binary op left right type m)))
    | some operator => do
      let left ← left.template bound
      let right ← right.template bound
      return .operation operator [left, right]
  | .unary op operand _ _ => do
    let operand ← operand.template bound
    match op with
    | .not => return .operation "$not" [operand]
    | .negate => return .operation "$multiply" [operand, .value (.int (-1))]
    | .convert => return operand
  | .conditional test ifTrue ifFalse _ => do
    let test ← test.template bound
    let ifTrue ← ifTrue.template bound
    let ifFalse ← ifFalse.template bound
    return .operation "$cond" [test, ifTrue, ifFalse]
  | .function name arguments _ _ => do
    return .operation ("$" ++ name) (← templates bound arguments)
  | .within item values negated _ => do
    let item ← item.template bound
    let values ← values.template bound
    let test := Template.operation "$in" [item, values]
    return if negated then .operation "$not" [test] else test

/-- What rendering makes of scalars without the values of parameters. -/
def templates (bound : String → Bool) : List Scalar → Except QueryError (List Template)
  | [] => .ok []
  | s :: rest => do
    let t ← s.template bound
    let ts ← templates bound rest
    return t :: ts

end

variable {parameters : Parameters}

mutual

/-- **Rendering is filling a template** that does not depend on the values. -/
theorem render_eq : (s : Scalar) → s.render parameters
    = (s.template fun name => parameters.contains name).map (Template.fill parameters)
  | .field f => by
    rw [render, template]
    split <;> rfl
  | .constant value type m => by
    rw [render, template]
    rfl
  | .parameter name type m => by
    rw [render, template, Parameters.value, Table.contains]
    -- a parameter without a value is an error in the template too
    cases h : parameters.get? name with
    | none => rfl
    | some v =>
      have hfill : (Template.given name).fill parameters = v.literal := by
        rw [Template.fill, h, Option.getD_some]
      exact congrArg Except.ok hfill.symm
  | .binary op left right type m => by
    rw [render, template, render_eq left, render_eq right]
    cases op.operator? type with
    -- both sides fail alike, at the operator or at the first operand that fails
    | none => rfl
    | some operator =>
      cases left.template _ with
      | error e => rfl
      | ok l =>
        cases right.template _ with
        | error e => rfl
        | ok r => exact congrArg Except.ok (Template.fill_operation parameters operator [l, r]).symm
  | .unary op operand type m => by
    rw [render, template, render_eq operand]
    cases operand.template _ with
    | error e => rfl
    | ok x =>
      cases op with
      | not => exact congrArg Except.ok (Template.fill_operation parameters "$not" [x]).symm
      | negate =>
        exact congrArg Except.ok
          (Template.fill_operation parameters "$multiply" [x, .value (.int (-1))]).symm
      | convert => rfl
  | .conditional test ifTrue ifFalse m => by
    rw [render, template, render_eq test, render_eq ifTrue, render_eq ifFalse]
    cases test.template _ with
    | error e => rfl
    | ok c =>
      cases ifTrue.template _ with
      | error e => rfl
      | ok a =>
        cases ifFalse.template _ with
        | error e => rfl
        | ok b =>
          exact congrArg Except.ok (Template.fill_operation parameters "$cond" [c, a, b]).symm
  | .function name arguments type m => by
    rw [render, template, renderAll_eq arguments]
    cases templates _ arguments with
    | error e => rfl
    | ok ts => exact congrArg Except.ok (Template.fill_operation parameters ("$" ++ name) ts).symm
  | .within item values negated m => by
    rw [render, template, render_eq item, render_eq values]
    cases item.template _ with
    | error e => rfl
    | ok x =>
      cases values.template _ with
      | error e => rfl
      | ok vs =>
        have htest := Template.fill_operation parameters "$in" [x, vs]
        cases negated with
        -- a negated test is a test inside of another operation
        | false => exact congrArg Except.ok htest.symm
        | true =>
          have hnot := Template.fill_operation parameters "$not"
            [.operation "$in" [x, vs]]
          rw [List.map_singleton, htest] at hnot
          exact congrArg Except.ok hnot.symm

theorem renderAll_eq : (xs : List Scalar) → renderAll parameters xs
    = (templates (fun name => parameters.contains name) xs).map
      (List.map (Template.fill parameters))
  | [] => by
    rw [renderAll, templates]
    rfl
  | x :: rest => by
    rw [renderAll, templates, render_eq x, renderAll_eq rest]
    cases x.template _ with
    | error e => rfl
    | ok t =>
      cases templates _ rest with
      | error e => rfl
      | ok ts => rfl

end

/-- The name of a parameter node. -/
def parameterName? : Scalar → Option String
  | .parameter name _ _ => some name
  | _ => none

/-- The parameters in a scalar, from left to right. -/
def parameterNames (s : Scalar) : List String := s.nodes.filterMap parameterName?

theorem parameterNames_eq (s : Scalar) : s.parameterNames
    = s.parameterName?.toList ++ s.children.flatMap parameterNames :=
  filterMap_nodes parameterName? s

variable {bound : String → Bool}

mutual

/-- **The holes are where the parameters are.** -/
theorem names_of_template : (s : Scalar) → ∀ {t : Template}, s.template bound = .ok t →
    t.names = s.parameterNames
  | .field f, t, h => by
    rw [template] at h
    split at h
    · cases h
    · cases h
      rw [parameterNames_eq]
      rfl
  | .constant value type m, t, h => by
    rw [template] at h
    cases h
    rw [parameterNames_eq]
    rfl
  | .parameter name type m, t, h => by
    rw [template] at h
    split at h
    · cases h
      rw [parameterNames_eq]
      rfl
    · cases h
  | .binary op left right type m, t, h => by
    rw [template] at h
    split at h
    · cases h
    · obtain ⟨l, hl, h⟩ := Except.bind_eq_ok_iff.mp h
      obtain ⟨r, hr, h⟩ := Except.bind_eq_ok_iff.mp h
      cases Except.pure_eq_ok_iff.mp h
      rw [Template.names_operation, parameterNames_eq, children]
      simp [parameterName?, names_of_template left hl, names_of_template right hr]
  | .unary op operand type m, t, h => by
    rw [template] at h
    obtain ⟨x, hx, h⟩ := Except.bind_eq_ok_iff.mp h
    have hnames := names_of_template operand hx
    rw [parameterNames_eq, children]
    cases op with
    | not =>
      cases Except.pure_eq_ok_iff.mp h
      simp [parameterName?, Template.names_operation, hnames]
    | negate =>
      cases Except.pure_eq_ok_iff.mp h
      simp [parameterName?, Template.names_operation, Template.names, hnames]
    | convert =>
      cases Except.pure_eq_ok_iff.mp h
      simp [parameterName?, hnames]
  | .conditional test ifTrue ifFalse m, t, h => by
    rw [template] at h
    obtain ⟨c, hc, h⟩ := Except.bind_eq_ok_iff.mp h
    obtain ⟨a, ha, h⟩ := Except.bind_eq_ok_iff.mp h
    obtain ⟨b, hb, h⟩ := Except.bind_eq_ok_iff.mp h
    cases Except.pure_eq_ok_iff.mp h
    rw [Template.names_operation, parameterNames_eq, children]
    simp [parameterName?, names_of_template test hc, names_of_template ifTrue ha,
      names_of_template ifFalse hb]
  | .function name arguments type m, t, h => by
    rw [template] at h
    obtain ⟨ts, hts, h⟩ := Except.bind_eq_ok_iff.mp h
    cases Except.pure_eq_ok_iff.mp h
    rw [Template.names_operation, parameterNames_eq, children, names_of_templates arguments hts]
    rfl
  | .within item values negated m, t, h => by
    rw [template] at h
    obtain ⟨x, hx, h⟩ := Except.bind_eq_ok_iff.mp h
    obtain ⟨vs, hvs, h⟩ := Except.bind_eq_ok_iff.mp h
    rw [parameterNames_eq, children]
    cases negated with
    | false =>
      cases Except.pure_eq_ok_iff.mp h
      simp [parameterName?, Template.names_operation, names_of_template item hx,
        names_of_template values hvs]
    | true =>
      cases Except.pure_eq_ok_iff.mp h
      simp [parameterName?, Template.names_operation, names_of_template item hx,
        names_of_template values hvs]

theorem names_of_templates : (xs : List Scalar) → ∀ {ts : List Template},
    templates bound xs = .ok ts → ts.flatMap Template.names = xs.flatMap parameterNames
  | [], ts, h => by
    rw [templates] at h
    cases h
    rfl
  | x :: rest, ts, h => by
    rw [templates] at h
    obtain ⟨t, ht, h⟩ := Except.bind_eq_ok_iff.mp h
    obtain ⟨later, hlater, h⟩ := Except.bind_eq_ok_iff.mp h
    cases Except.pure_eq_ok_iff.mp h
    rw [List.flatMap_cons, List.flatMap_cons, names_of_template x ht,
      names_of_templates rest hlater]

end

end Scalar

/-! ## Plans -/

namespace FindPlan

variable {parameters : Parameters} {bound : String → Bool}

/-- Several filters with holes as one. -/
def templateConjunction : List Template → Template
  | [] => .obj []
  | [filter] => filter
  | filters => .operation "$and" filters

theorem fill_templateConjunction (filters : List Template) :
    (templateConjunction filters).fill parameters
      = conjunction (filters.map (Template.fill parameters)) := by
  match filters with
  | [] => rfl
  | [filter] => rfl
  | first :: second :: rest => exact Template.fill_operation parameters "$and" _

theorem names_templateConjunction (filters : List Template) :
    (templateConjunction filters).names = filters.flatMap Template.names := by
  match filters with
  | [] => rfl
  | [filter] => exact (List.flatMap_singleton _ _).symm
  | first :: second :: rest => exact Template.names_operation "$and" _

/-- The filter for a predicate, with holes. -/
def predicateTemplate (bound : String → Bool) (q : Select) : Except QueryError (Option Template) :=
  match q.predicate with
  | none => .ok none
  | some predicate => do return some (.obj [("$expr", ← predicate.template bound)])

theorem predicateFilter_eq (q : Select) : predicateFilter parameters q
    = (predicateTemplate (fun name => parameters.contains name) q).map
      (Option.map (Template.fill parameters)) := by
  unfold predicateFilter predicateTemplate
  cases q.predicate with
  | none => rfl
  | some predicate =>
    dsimp only
    rw [Scalar.render_eq]
    cases predicate.template _ <;> rfl

theorem names_of_predicateTemplate {q : Select} {predicate : Option Template}
    (h : predicateTemplate bound q = .ok predicate) :
    predicate.toList.flatMap Template.names = q.predicate.toList.flatMap Scalar.parameterNames := by
  unfold predicateTemplate at h
  split at h
  · rename_i hq
    cases h
    rw [hq]
    rfl
  · rename_i s hq
    obtain ⟨t, ht, h⟩ := Except.bind_eq_ok_iff.mp h
    cases Except.pure_eq_ok_iff.mp h
    rw [hq, Option.toList_some, Option.toList_some, List.flatMap_singleton,
      List.flatMap_singleton, ← Scalar.names_of_template s ht]
    exact List.append_nil _

/-- The value of an output field, with holes. -/
def outputTemplate (bound : String → Bool) : Node → Except QueryError Template
  | .scalar s => s.template bound
  | .entity shape =>
    .ok (.value (if shape.access.isRoot then .str "$$ROOT" else .fieldPath shape.access.path))
  | .array shape => .ok (.value (.fieldPath shape.path))

theorem outputValue_eq (node : Node) : outputValue parameters node
    = (outputTemplate (fun name => parameters.contains name) node).map
      (Template.fill parameters) := by
  cases node with
  | scalar s => exact Scalar.render_eq s
  | entity shape =>
    rw [outputValue, outputTemplate]
    split <;> rfl
  | array shape => rfl

/-- The values of output fields, with holes. -/
def outputTemplates (bound : String → Bool) (fields : List OutputField) :
    Except QueryError (Table String Template) :=
  fields.foldlM (fun table f => do
    return Table.insert table f.name (← outputTemplate bound f.node)) []

theorem outputValues_eq (fields : List OutputField) : outputValues parameters fields
    = (outputTemplates (fun name => parameters.contains name) fields).map
      (Template.fillFields parameters) := by
  have hfill : Template.fillFields parameters
      = List.map fun f => (f.1, f.2.fill parameters) := funext Template.fillFields_eq
  -- each output is inserted as a template and filled later, or filled first
  have hstep : ∀ (table : Table String Template) (f : OutputField),
      (outputValue parameters f.node >>= fun v =>
        pure (Table.insert (Template.fillFields parameters table) f.name v))
      = (outputTemplate (fun name => parameters.contains name) f.node >>= fun t =>
        pure (Table.insert table f.name t)).map (Template.fillFields parameters) := by
    intro table f
    rw [outputValue_eq]
    cases outputTemplate _ f.node with
    | error e => rfl
    | ok t =>
      rw [hfill]
      exact congrArg Except.ok (Table.insert_map _ table f.name t)
  unfold outputValues outputTemplates
  exact Except.foldlM_map (g := Template.fillFields parameters) hstep fields []

/-- The holes of an output come from parameters in its scalars. -/
theorem names_of_outputTemplates {fields : List OutputField} {table : Table String Template}
    (h : outputTemplates bound fields = .ok table) {name : String}
    (hname : name ∈ Template.namesOfFields table) :
    ∃ field ∈ fields, ∃ s, field.node = .scalar s ∧ name ∈ s.parameterNames := by
  have hall : ∀ entry ∈ table, ∀ name ∈ entry.2.names,
      ∃ field ∈ fields, ∃ s, field.node = .scalar s ∧ name ∈ s.parameterNames := by
    refine Except.foldlM_keeps (P := fun table : Table String Template => ∀ entry ∈ table,
      ∀ name ∈ entry.2.names, ∃ field ∈ fields, ∃ s, field.node = .scalar s
        ∧ name ∈ s.parameterNames) ?_ h nofun
    intro before field after hfield hbefore hstep entry hentry name hname
    obtain ⟨t, ht, hstep⟩ := Except.bind_eq_ok_iff.mp hstep
    cases Except.pure_eq_ok_iff.mp hstep
    -- the template that is inserted has the holes of its scalar, and the others were there
    rcases Table.mem_insert hentry with rfl | hentry
    · cases hnode : field.node with
      | scalar s =>
        rw [hnode, outputTemplate] at ht
        rw [Scalar.names_of_template s ht] at hname
        exact ⟨field, hfield, s, hnode, hname⟩
      | entity shape =>
        rw [hnode] at ht
        cases ht
        cases hname
      | array shape =>
        rw [hnode] at ht
        cases ht
        cases hname
    · exact hbefore entry hentry name hname
  obtain ⟨entry, hentry, hname⟩ := Template.mem_namesOfFields hname
  exact hall entry hentry name hname

/-- The projection for the output fields, with holes. -/
def projectionTemplate? (bound : String → Bool) (q : Select) :
    Except QueryError (Option Template) :=
  if isWholeDocument q.output then .ok none
  else do return some (.obj (← outputTemplates bound q.output))

theorem projection?_eq (q : Select) : projection? parameters q
    = (projectionTemplate? (fun name => parameters.contains name) q).map
      (Option.map (Template.fill parameters)) := by
  unfold projection? projectionTemplate?
  split
  · rfl
  · rw [outputValues_eq]
    cases outputTemplates _ q.output <;> rfl

theorem names_of_projectionTemplate? {q : Select} {projection : Option Template}
    (h : projectionTemplate? bound q = .ok projection) :
    ∀ t ∈ projection, ∀ name ∈ t.names,
      ∃ field ∈ q.output, ∃ s, field.node = .scalar s ∧ name ∈ s.parameterNames := by
  intro t ht name hname
  unfold projectionTemplate? at h
  split at h
  · cases h
    cases ht
  · obtain ⟨table, htable, h⟩ := Except.bind_eq_ok_iff.mp h
    cases Except.pure_eq_ok_iff.mp h
    cases Option.some.inj ht
    exact names_of_outputTemplates htable hname

/-- A count is there just if a node for it is. -/
theorem isSome_of_pagingCount? {s : Option Scalar} {n : Option Nat}
    (h : pagingCount? parameters s = .ok n) : n.isSome = s.isSome := by
  cases s with
  | none =>
    cases h
    rfl
  | some s =>
    obtain ⟨n, _, h⟩ := Except.bind_eq_ok_iff.mp h
    cases Except.pure_eq_ok_iff.mp h
    rfl

/-- What two plans of a statement have in common under two choices of values. Where a value may
differ both have a hole of one template, and counts may differ that say how many rows. -/
structure Alike (q : Select) (parameters parameters' : Parameters) (plan plan' : FindPlan) :
    Prop where
  collection : plan'.collection = plan.collection
  /-- The filters are one filter with holes for the parameters in the predicate. -/
  filter : ∃ t : Template, t.names = q.predicate.toList.flatMap Scalar.parameterNames
    ∧ plan.filter = t.fill parameters ∧ plan'.filter = t.fill parameters'
  /-- The projections are one projection with holes for parameters in the output. -/
  projection : ∃ projection : Option Template,
    (∀ t ∈ projection, ∀ name ∈ t.names,
      ∃ field ∈ q.output, ∃ s, field.node = .scalar s ∧ name ∈ s.parameterNames)
    ∧ plan.projection = projection.map (Template.fill parameters)
    ∧ plan'.projection = projection.map (Template.fill parameters')
  sort : plan'.sort = plan.sort
  skip : plan'.skip.isSome = plan.skip.isSome
  limit : plan'.limit.isSome = plan.limit.isSome
  distinct : plan'.distinct = plan.distinct

/-- A filter is filled from a template with holes for the parameters in the predicate. -/
theorem MadeOf.filter_eq {s : Schema} {q : Select} {plan : FindPlan}
    (h : MadeOf s parameters q plan) : ∃ predicate,
    predicateTemplate (fun name => parameters.contains name) q = .ok predicate
      ∧ plan.filter = (templateConjunction (((discriminatorFilter? s q).toList.map Template.value)
        ++ predicate.toList)).fill parameters := by
  obtain ⟨predicate, hpredicate, hfilter⟩ := h.filter
  rw [predicateFilter_eq] at hpredicate
  obtain ⟨template, htemplate, rfl⟩ := Except.map_eq_ok_iff.mp hpredicate
  refine ⟨template, htemplate, ?_⟩
  -- the restriction to discriminators has no holes
  have hvalues : ((discriminatorFilter? s q).toList.map Template.value).map
      (Template.fill parameters) = (discriminatorFilter? s q).toList := by
    rw [List.map_map]
    exact List.map_id _
  rw [hfilter, fill_templateConjunction, List.map_append, hvalues]
  cases template <;> rfl

theorem MadeOf.projection_eq {s : Schema} {q : Select} {plan : FindPlan}
    (h : MadeOf s parameters q plan) : ∃ projection,
    projectionTemplate? (fun name => parameters.contains name) q = .ok projection
      ∧ plan.projection = projection.map (Template.fill parameters) := by
  have hprojection := h.projection
  rw [projection?_eq] at hprojection
  obtain ⟨template, htemplate, heq⟩ := Except.map_eq_ok_iff.mp hprojection
  exact ⟨template, htemplate, heq.symm⟩

/-- **Plans of a statement are alike** where the same parameters have values. -/
theorem alike_of_ofSelect {s : Schema} {q : Select} {parameters' : Parameters}
    (hnames : ∀ name, parameters.contains name = parameters'.contains name) {plan plan' : FindPlan}
    (h : ofSelect s parameters q = .ok plan) (h' : ofSelect s parameters' q = .ok plan') :
    Alike q parameters parameters' plan plan' := by
  have hmade := madeOf_ofSelect h
  have hmade' := madeOf_ofSelect h'
  have hbound : (fun name => parameters'.contains name) = fun name => parameters.contains name :=
    funext fun name => (hnames name).symm
  obtain ⟨predicate, hpredicate, hfilter⟩ := hmade.filter_eq
  obtain ⟨predicate', hpredicate', hfilter'⟩ := hmade'.filter_eq
  obtain ⟨projection, htemplate, hprojection⟩ := hmade.projection_eq
  obtain ⟨projection', htemplate', hprojection'⟩ := hmade'.projection_eq
  -- both templates are the same, because they depend on the names only
  rw [hbound] at hpredicate' htemplate'
  cases hpredicate.symm.trans hpredicate'
  cases htemplate.symm.trans htemplate'
  constructor
  case collection => rw [hmade.collection, hmade'.collection]
  case filter =>
    refine ⟨_, ?_, hfilter, hfilter'⟩
    rw [names_templateConjunction, List.flatMap_append, names_of_predicateTemplate hpredicate]
    cases discriminatorFilter? s q <;> rfl
  case projection =>
    exact ⟨projection, names_of_projectionTemplate? htemplate, hprojection, hprojection'⟩
  case sort => exact Except.ok.inj (hmade'.sort.symm.trans hmade.sort)
  case skip => rw [isSome_of_pagingCount? hmade.skip, isSome_of_pagingCount? hmade'.skip]
  case limit => rw [isSome_of_pagingCount? hmade.limit, isSome_of_pagingCount? hmade'.limit]
  case distinct => rw [hmade.distinct, hmade'.distinct]

end FindPlan

/-- **Values of parameters cannot change a query.** Under two choices of values for the same
parameters a scalar fails with one error or is rendered alike, up to the values under the literals
that stand for its parameters, and so are the filters and projections of plans. -/
theorem values_stay_literal {parameters parameters' : Parameters}
    (h : ∀ name, parameters.contains name = parameters'.contains name) :
    (∀ s : Scalar,
      (∃ e, s.render parameters = .error e ∧ s.render parameters' = .error e)
        ∨ ∃ t : Template, t.names = s.parameterNames
          ∧ s.render parameters = .ok (t.fill parameters)
          ∧ s.render parameters' = .ok (t.fill parameters'))
      ∧ ∀ (schema : Schema) (q : Select) (plan plan' : FindPlan),
        FindPlan.ofSelect schema parameters q = .ok plan →
        FindPlan.ofSelect schema parameters' q = .ok plan' →
        FindPlan.Alike q parameters parameters' plan plan' := by
  refine ⟨?_, fun schema q plan plan' => FindPlan.alike_of_ofSelect h⟩
  intro s
  -- the template is made without the values, from which parameters have one
  have hbound : (fun name => parameters'.contains name) = fun name => parameters.contains name :=
    funext fun name => (h name).symm
  have hrender : s.render parameters = _ := s.render_eq
  have hrender' : s.render parameters' = _ := s.render_eq
  rw [hbound] at hrender'
  cases ht : s.template fun name => parameters.contains name with
  | error e =>
    rw [ht] at hrender hrender'
    exact .inl ⟨e, hrender, hrender'⟩
  | ok t =>
    rw [ht] at hrender hrender'
    exact .inr ⟨t, Scalar.names_of_template s ht, hrender, hrender'⟩

/-- The people that are asked for. -/
def askedPeople : Select := allPeople.select.applyPredicate (.placeholder "asked" .bool)

theorem values_stay_literal_asked : ∃ plan plan',
    (∀ name, Table.contains [("asked", Value.bool true)] name
        = Table.contains [("asked", Value.str "$Home")] name)
      ∧ FindPlan.ofSelect people [("asked", .bool true)] askedPeople = .ok plan
      ∧ FindPlan.ofSelect people [("asked", .str "$Home")] askedPeople = .ok plan'
      ∧ plan.filter = .obj [("$expr", .literal (.bool true))]
      ∧ plan'.filter = .obj [("$expr", .literal (.str "$Home"))]
      ∧ FindPlan.Alike askedPeople [("asked", .bool true)] [("asked", .str "$Home")] plan
        plan' := by
  have hnames : ∀ name, Table.contains [("asked", Value.bool true)] name
      = Table.contains [("asked", Value.str "$Home")] name := by
    intro name
    by_cases hname : "asked" = name <;> simp [Table.contains, Table.get?_cons, hname]
  exact ⟨_, _, hnames, rfl, rfl, rfl, rfl,
    (values_stay_literal hnames).2 people askedPeople _ _ rfl rfl⟩

end Odm
