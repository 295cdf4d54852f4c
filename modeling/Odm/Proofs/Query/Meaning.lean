import Odm.Document
import Odm.Query.Mapping

/-!
# What a scalar computes

A scalar leaves open what its parameters and fields hold and what its operators do. An
*interpretation* fills this in, and then every scalar has a value. Nothing is asked of the
operators: an interpretation may just as well build terms, and then equal values mean that the
same operators stand over the same operands in the same order.

A conversion is no operator here. It says how a value is seen by the host program, and the
value that the document store has is the same one.

What matters for all that is built from scalars is that mapping inference, which takes nodes
apart and rebuilds them, never changes what they compute.
-/

namespace Odm

/-- A value for everything that a scalar leaves open. -/
structure Interpretation (α : Type) where
  literal : Value → α
  parameter : String → α
  /-- What the document holds at the end of a path of fields. -/
  field : List String → α
  binary : BinaryOp → α → α → α
  not : α → α
  negate : α → α
  conditional : (test ifTrue ifFalse : α) → α
  function : String → List α → α
  within : (negated : Bool) → (item values : α) → α

namespace Scalar

variable {α : Type}

mutual

/-- What a scalar computes. -/
def eval (I : Interpretation α) : Scalar → α
  | .field f => I.field f.path
  | .constant value _ _ => I.literal value
  | .parameter name _ _ => I.parameter name
  | .binary op left right _ _ => I.binary op (left.eval I) (right.eval I)
  | .unary .not operand _ _ => I.not (operand.eval I)
  | .unary .negate operand _ _ => I.negate (operand.eval I)
  | .unary .convert operand _ _ => operand.eval I
  | .conditional test ifTrue ifFalse _ =>
    I.conditional (test.eval I) (ifTrue.eval I) (ifFalse.eval I)
  | .function name arguments _ _ => I.function name (evalAll I arguments)
  | .within item values negated _ => I.within negated (item.eval I) (values.eval I)

/-- What scalars compute, one after the other. -/
def evalAll (I : Interpretation α) : List Scalar → List α
  | [] => []
  | s :: rest => s.eval I :: evalAll I rest

end

/-! ## Nodes over mapped parts -/

theorem joinBinary_eq_some {op : BinaryOp} {left right : Option Scalar} {s : Scalar}
    (h : joinBinary op left right = some s) :
    op ≠ .coalesce ∧ ∃ l r, left = some l ∧ right = some r
      ∧ s = .binary op l r (if op.isPredicate then .bool else l.type)
        (if op.isPredicate then boolMapping else l.mapping) := by
  by_cases hop : op = .coalesce
  · simp [joinBinary, hop] at h
  · refine ⟨hop, ?_⟩
    simp only [joinBinary, hop, if_false, Option.bind_eq_bind, Option.bind_eq_some_iff] at h
    obtain ⟨l, rfl, r, rfl, h⟩ := h
    refine ⟨l, r, rfl, rfl, ?_⟩
    by_cases hp : op.isPredicate
    · simpa [hp] using h.symm
    · simpa [hp] using h.symm

theorem joinBinary_eval {I : Interpretation α} {op : BinaryOp} {left right : Option Scalar}
    {s : Scalar} (h : joinBinary op left right = some s) :
    op ≠ .coalesce ∧ ∃ l r, left = some l ∧ right = some r
      ∧ s.eval I = I.binary op (l.eval I) (r.eval I) := by
  obtain ⟨hop, l, r, hl, hr, rfl⟩ := joinBinary_eq_some h
  exact ⟨hop, l, r, hl, hr, rfl⟩

theorem joinUnary_eq_some {op : ScalarUnaryOp} {type : HostType} {operand : Option Scalar}
    {s : Scalar} (h : joinUnary op type operand = some s) :
    ∃ x type' m, operand = some x ∧ s = .unary op x type' m
      ∧ (m = boolMapping ∨ m = x.mapping) := by
  cases operand with
  | none => cases h
  | some x =>
    cases op with
    | not => cases h; exact ⟨x, _, _, rfl, rfl, .inl rfl⟩
    | negate => cases h; exact ⟨x, _, _, rfl, rfl, .inr rfl⟩
    | convert => cases h; exact ⟨x, _, _, rfl, rfl, .inr rfl⟩

theorem joinUnary_eval {I : Interpretation α} {op : ScalarUnaryOp} {type : HostType}
    {operand : Option Scalar} {s : Scalar} (h : joinUnary op type operand = some s) :
    ∃ x, operand = some x ∧ s.eval I = (Scalar.unary op x type none).eval I := by
  obtain ⟨x, type', m, rfl, rfl, _⟩ := joinUnary_eq_some h
  refine ⟨x, rfl, ?_⟩
  cases op <;> rw [eval, eval]

theorem joinConditional_eval {I : Interpretation α} {test ifTrue ifFalse : Option Scalar}
    {s : Scalar} (h : joinConditional test ifTrue ifFalse = some s) :
    ∃ c a b, test = some c ∧ ifTrue = some a ∧ ifFalse = some b
      ∧ s.eval I = I.conditional (c.eval I) (a.eval I) (b.eval I) := by
  simp only [joinConditional, Option.bind_eq_bind, Option.bind_eq_some_iff,
    Option.some.injEq] at h
  obtain ⟨c, hc, a, ha, b, hb, h⟩ := h
  refine ⟨c, a, b, hc, ha, hb, ?_⟩
  rw [← h, eval]

theorem joinFunction_eval {I : Interpretation α} {name : String} {type : HostType}
    {arguments : Option (List Scalar)} {s : Scalar}
    (h : joinFunction name type arguments = some s) :
    ∃ xs, arguments = some xs ∧ s.eval I = I.function name (evalAll I xs) := by
  simp only [joinFunction, Option.bind_eq_bind, Option.bind_eq_some_iff,
    Option.some.injEq] at h
  obtain ⟨xs, hxs, m, _, h⟩ := h
  refine ⟨xs, hxs, ?_⟩
  rw [← h, eval]

theorem joinWithin_eval {I : Interpretation α} {negated : Bool} {item values : Option Scalar}
    {s : Scalar} (h : joinWithin negated item values = some s) :
    ∃ x vs, item = some x ∧ values = some vs
      ∧ s.eval I = I.within negated (x.eval I) (vs.eval I) := by
  simp only [joinWithin, Option.bind_eq_bind, Option.bind_eq_some_iff,
    Option.some.injEq] at h
  obtain ⟨x, hx, vs, hvs, h⟩ := h
  refine ⟨x, vs, hx, hvs, ?_⟩
  rw [← h, eval]

/-! ## Inference -/

mutual

/-- **Mapping inference keeps what a scalar computes.** -/
theorem applyMapping_eval (I : Interpretation α) : (s : Scalar) → {inferred : Option Mapping} →
    {s' : Scalar} → s.applyMapping inferred = some s' → s'.eval I = s.eval I
  | .field f, inferred, s', h => by
    simp only [applyMapping] at h
    split at h
    · cases h; rfl
    · obtain ⟨m, _, rfl⟩ := Option.map_eq_some_iff.mp h
      rfl
  | .constant value type m, inferred, s', h => by
    simp only [applyMapping] at h
    split at h
    · cases h; rfl
    · obtain ⟨m, _, rfl⟩ := Option.map_eq_some_iff.mp h
      rfl
  | .parameter name type m, inferred, s', h => by
    simp only [applyMapping] at h
    split at h
    · cases h; rfl
    · obtain ⟨m, _, rfl⟩ := Option.map_eq_some_iff.mp h
      rfl
  | .binary op left right type m, inferred, s', h => by
    simp only [applyMapping] at h
    split at h
    · cases h; rfl
    · obtain ⟨_, l, r, hl, hr, he⟩ := joinBinary_eval (I := I) h
      rw [he, applyMapping_eval I left hl, applyMapping_eval I right hr, eval]
  | .unary op operand type m, inferred, s', h => by
    simp only [applyMapping] at h
    split at h
    · cases h; rfl
    · obtain ⟨x, hx, he⟩ := joinUnary_eval (I := I) h
      have hxe := applyMapping_eval I operand hx
      rw [he]
      cases op <;> simp only [eval, hxe]
  | .conditional test ifTrue ifFalse m, inferred, s', h => by
    simp only [applyMapping] at h
    split at h
    · cases h; rfl
    · obtain ⟨c, a, b, hc, ha, hb, he⟩ := joinConditional_eval (I := I) h
      rw [he, applyMapping_eval I test hc, applyMapping_eval I ifTrue ha,
        applyMapping_eval I ifFalse hb, eval]
  | .function name arguments type m, inferred, s', h => by
    simp only [applyMapping] at h
    split at h
    · cases h; rfl
    · obtain ⟨xs, hxs, he⟩ := joinFunction_eval (I := I) h
      rw [he, applyMappings_eval I arguments hxs, eval]
  | .within item values negated m, inferred, s', h => by
    simp only [applyMapping] at h
    split at h
    · cases h; rfl
    · obtain ⟨x, vs, hx, hvs, he⟩ := joinWithin_eval (I := I) h
      rw [he, applyMapping_eval I item hx, applyMapping_eval I values hvs, eval]

theorem applyMappings_eval (I : Interpretation α) : (xs : List Scalar) → {xs' : List Scalar} →
    applyMappings xs = some xs' → evalAll I xs' = evalAll I xs
  | [], xs', h => by
    simp only [applyMappings, Option.some.injEq] at h
    rw [← h]
  | x :: rest, xs', h => by
    simp only [applyMappings, Option.bind_eq_bind, Option.bind_eq_some_iff,
      Option.some.injEq] at h
    obtain ⟨y, hy, ys, hys, rfl⟩ := h
    rw [evalAll, evalAll, applyMapping_eval I x hy, applyMappings_eval I rest hys]

end

/-! ## Building nodes -/

theorem combine_eval {I : Interpretation α} {op : BinaryOp} {left right s : Scalar}
    (h : left.combine op right = some s) :
    op ≠ .coalesce ∧ s.eval I = I.binary op (left.eval I) (right.eval I) := by
  obtain ⟨hop, l, r, hl, hr, he⟩ := joinBinary_eval (I := I) h
  rw [he, applyMapping_eval I left hl, applyMapping_eval I right hr]
  exact ⟨hop, rfl⟩

theorem not_eval {I : Interpretation α} {operand s : Scalar} (h : operand.not = some s) :
    s.eval I = I.not (operand.eval I) := by
  obtain ⟨x, hx, he⟩ := joinUnary_eval (I := I) h
  rw [he, eval, applyMapping_eval I operand hx]

theorem negate_eval {I : Interpretation α} {operand s : Scalar} (h : operand.negate = some s) :
    s.eval I = I.negate (operand.eval I) := by
  obtain ⟨x, hx, he⟩ := joinUnary_eval (I := I) h
  rw [he, eval, applyMapping_eval I operand hx]

theorem convert_eval {I : Interpretation α} {operand s : Scalar} {type : HostType}
    (h : operand.convert type = some s) : s.eval I = operand.eval I := by
  obtain ⟨x, hx, he⟩ := joinUnary_eval (I := I) h
  rw [he, eval, applyMapping_eval I operand hx]

theorem choose_eval {I : Interpretation α} {test ifTrue ifFalse s : Scalar}
    (h : Scalar.choose test ifTrue ifFalse = some s) :
    s.eval I = I.conditional (test.eval I) (ifTrue.eval I) (ifFalse.eval I) := by
  obtain ⟨c, a, b, hc, ha, hb, he⟩ := joinConditional_eval (I := I) h
  rw [he, applyMapping_eval I test hc, applyMapping_eval I ifTrue ha,
    applyMapping_eval I ifFalse hb]

end Scalar

/-! ## Documents -/

/-- The value at the end of a path of fields, null where there is none. -/
def Value.atPath : List String → Value → Value
  | [], v => v
  | name :: rest, .obj fields => (Document.fieldOrNull fields name).atPath rest
  | _ :: _, _ => .null

/-- Comparisons for equality and the connectives; nothing else is computed. -/
def BinaryOp.compute : BinaryOp → Value → Value → Value
  | .equal, a, b => .bool (a = b)
  | .notEqual, a, b => .bool (a ≠ b)
  | .andAlso, a, b => .bool (a = .bool true ∧ b = .bool true)
  | .orElse, a, b => .bool (a = .bool true ∨ b = .bool true)
  | _, _, _ => .null

/-- The values that one document and the values of parameters give to scalars. -/
def Interpretation.ofDocument (parameters : Document) (document : Document) :
    Interpretation Value where
  literal := id
  parameter := parameters.fieldOrNull
  field path := document.toValue.atPath path
  binary := BinaryOp.compute
  not v := .bool (v ≠ .bool true)
  negate _ := .null
  conditional test ifTrue ifFalse := if test = .bool true then ifTrue else ifFalse
  function _ _ := .null
  within _ _ _ := .null

end Odm
