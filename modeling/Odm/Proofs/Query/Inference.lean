import Mathlib.Data.List.Forall2
import Odm.Proofs.Query.Mapped

/-!
# Inference only adds mappings

Inference takes a node without a mapping apart, infers its parts and puts them together anew. On
the way an operand could be lost or swapped, or the sense of a membership test turned round, and
fully mapped scalars would never show it, because they are not taken apart at all. What is compared
here is therefore a scalar and what inference makes of it, with any mix of mapped and unmapped
nodes in between.

*Erased* scalars have no mappings, and their operators do not say what type their results have. This
is all that inference may change. It does not change a mapping either: a node that has one is found
again below what was inferred, with all that is under it.

One induction serves for all of this. A relation between scalars is `Stepwise` if it holds where
nothing is inferred and is handed on from the parts of a node to the node put together anew.
-/

namespace Odm.Scalar

/-! ## Scalars without mappings -/

mutual

/-- The scalar without the mappings of its nodes and the result types of its operators. -/
def erased : Scalar → Scalar
  | .field f => .field { f with mapping := none }
  | .constant value type _ => .constant value type none
  | .parameter name type _ => .parameter name type none
  -- all operators get the same type, which then says nothing
  | .binary op left right _ _ => .binary op left.erased right.erased .object none
  | .unary .not operand _ _ => .unary .not operand.erased .object none
  | .unary .negate operand _ _ => .unary .negate operand.erased .object none
  -- the type of a conversion is what it converts to
  | .unary .convert operand type _ => .unary .convert operand.erased type none
  | .conditional test ifTrue ifFalse _ => .conditional test.erased ifTrue.erased ifFalse.erased none
  | .function name arguments type _ => .function name (erasedAll arguments) type none
  | .within item values negated _ => .within item.erased values.erased negated none

/-- Scalars without mappings and result types, one after the other. -/
def erasedAll : List Scalar → List Scalar
  | [] => []
  | s :: rest => s.erased :: erasedAll rest

end

/-! ## One induction over inference -/

/-- A relation that holds between scalars and themselves if they have a mapping, between leaves
without and with a mapping, and between two nodes if it holds between their parts. -/
structure Stepwise (R : Scalar → Scalar → Prop) : Prop where
  kept : ∀ {s}, s.mapping.isSome → R s s
  field : ∀ f m, f.mapping = none → R (.field f) (.field { f with mapping := some m })
  constant : ∀ value type m, R (.constant value type none) (.constant value type (some m))
  parameter : ∀ name type m, R (.parameter name type none) (.parameter name type (some m))
  binary : ∀ {op left right left' right' type}, R left left' → R right right' →
    R (.binary op left right type none)
      (.binary op left' right' (if op.isPredicate then .bool else left'.type)
        (if op.isPredicate then boolMapping else left'.mapping))
  not : ∀ {operand operand' type}, R operand operand' →
    R (.unary .not operand type none) (.unary .not operand' .bool boolMapping)
  negate : ∀ {operand operand' type}, R operand operand' →
    R (.unary .negate operand type none) (.unary .negate operand' operand'.type operand'.mapping)
  convert : ∀ {operand operand' type}, R operand operand' →
    R (.unary .convert operand type none) (.unary .convert operand' type operand'.mapping)
  conditional : ∀ {test ifTrue ifFalse test' ifTrue' ifFalse'}, R test test' →
    R ifTrue ifTrue' → R ifFalse ifFalse' →
    R (.conditional test ifTrue ifFalse none)
      (.conditional test' ifTrue' ifFalse' (sharedMapping ifTrue' ifFalse'))
  function : ∀ {name arguments arguments' type m}, List.Forall₂ R arguments arguments' →
    R (.function name arguments type none) (.function name arguments' type (some m))
  within : ∀ {item values item' values' negated}, R item item' → R values values' →
    R (.within item values negated none) (.within item' values' negated boolMapping)

namespace Stepwise

variable {R : Scalar → Scalar → Prop}

/-- A node put together anew over an operand. -/
theorem unary (hR : Stepwise R) {op : ScalarUnaryOp} {operand operand' s : Scalar}
    {type : HostType} (hoperand : R operand operand')
    (h : joinUnary op type (some operand') = some s) : R (.unary op operand type none) s := by
  cases op with
  | not =>
    cases h
    exact hR.not hoperand
  | negate =>
    cases h
    exact hR.negate hoperand
  | convert =>
    cases h
    exact hR.convert hoperand

mutual

/-- **A stepwise relation holds between a scalar and what inference makes of it.** -/
theorem applyMapping (hR : Stepwise R) : (s : Scalar) → {inferred : Option Mapping} →
    {s' : Scalar} → s.applyMapping inferred = some s' → R s s'
  | .field f, inferred, s', h => by
    by_cases hm : f.mapping.isSome
    · rw [Scalar.applyMapping, if_pos hm] at h
      cases h
      exact hR.kept hm
    · rw [Scalar.applyMapping, if_neg hm] at h
      obtain ⟨m, _, rfl⟩ := Option.map_eq_some_iff.mp h
      exact hR.field f m (Option.not_isSome_iff_eq_none.mp hm)
  | .constant value type none, inferred, s', h => by
    obtain ⟨m, _, rfl⟩ := Option.map_eq_some_iff.mp h
    exact hR.constant value type m
  | .parameter name type none, inferred, s', h => by
    obtain ⟨m, _, rfl⟩ := Option.map_eq_some_iff.mp h
    exact hR.parameter name type m
  | .binary op left right type none, inferred, s', h => by
    obtain ⟨_, l, r, hl, hr, rfl⟩ := joinBinary_eq_some h
    exact hR.binary (applyMapping hR left hl) (applyMapping hR right hr)
  | .unary op operand type none, inferred, s', h => by
    change joinUnary op type (operand.applyMapping none) = some s' at h
    obtain ⟨x, _, _, hx, _⟩ := joinUnary_eq_some h
    rw [hx] at h
    exact hR.unary (applyMapping hR operand hx) h
  | .conditional test ifTrue ifFalse none, inferred, s', h => by
    obtain ⟨c, hc, h⟩ := Option.bind_eq_some_iff.mp h
    obtain ⟨a, ha, h⟩ := Option.bind_eq_some_iff.mp h
    obtain ⟨b, hb, h⟩ := Option.bind_eq_some_iff.mp h
    cases h
    exact hR.conditional (applyMapping hR test hc) (applyMapping hR ifTrue ha)
      (applyMapping hR ifFalse hb)
  | .function name arguments type none, inferred, s', h => by
    obtain ⟨xs, hxs, h⟩ := Option.bind_eq_some_iff.mp h
    obtain ⟨m, _, h⟩ := Option.bind_eq_some_iff.mp h
    cases h
    exact hR.function (applyMappings hR arguments hxs)
  | .within item values negated none, inferred, s', h => by
    obtain ⟨x, hx, h⟩ := Option.bind_eq_some_iff.mp h
    obtain ⟨vs, hvs, h⟩ := Option.bind_eq_some_iff.mp h
    cases h
    exact hR.within (applyMapping hR item hx) (applyMapping hR values hvs)
  -- what has a mapping is not taken apart
  | .constant _ _ (some _), _, _, h | .parameter _ _ (some _), _, _, h
  | .binary _ _ _ _ (some _), _, _, h | .unary _ _ _ (some _), _, _, h
  | .conditional _ _ _ (some _), _, _, h | .function _ _ _ (some _), _, _, h
  | .within _ _ _ (some _), _, _, h => by
    cases h
    exact hR.kept rfl

theorem applyMappings (hR : Stepwise R) : (xs : List Scalar) → {xs' : List Scalar} →
    applyMappings xs = some xs' → List.Forall₂ R xs xs'
  | [], xs', h => by
    cases h
    exact .nil
  | x :: rest, xs', h => by
    obtain ⟨y, hy, h⟩ := Option.bind_eq_some_iff.mp h
    obtain ⟨ys, hys, h⟩ := Option.bind_eq_some_iff.mp h
    cases h
    exact .cons (applyMapping hR x hy) (applyMappings hR rest hys)

end

end Stepwise

/-! ## What inference adds and what it keeps -/

theorem mapping_isSome_stepwise : Stepwise fun _ s' => s'.mapping.isSome where
  kept h := h
  field _ _ _ := rfl
  constant _ _ _ := rfl
  parameter _ _ _ := rfl
  binary {op} _ _ _ _ _ hleft _ := by
    by_cases hop : op.isPredicate
    · simp [mapping, hop, boolMapping]
    · simpa [mapping, hop] using hleft
  not _ := rfl
  negate h := h
  convert h := h
  conditional _ htrue _ := by
    obtain ⟨m, hm⟩ := Option.isSome_iff_exists.mp htrue
    rw [mapping, sharedMapping, hm]
    rfl
  function _ := rfl
  within _ _ := rfl

theorem erased_stepwise : Stepwise fun s s' => s'.erased = s.erased where
  kept _ := rfl
  field _ _ _ := by rw [erased, erased]
  constant _ _ _ := rfl
  parameter _ _ _ := rfl
  binary hleft hright := by rw [erased, erased, hleft, hright]
  not h := by rw [erased, erased, h]
  negate h := by rw [erased, erased, h]
  convert h := by rw [erased, erased, h]
  conditional htest htrue hfalse := by rw [erased, erased, htest, htrue, hfalse]
  function {name arguments arguments' type m} h := by
    have hsame : erasedAll arguments' = erasedAll arguments := by
      induction h with
      | nil => rfl
      | cons hx _ ih => rw [erasedAll, erasedAll, hx, ih]
    rw [erased, erased, hsame]
  within hitem hvalues := by rw [erased, erased, hitem, hvalues]

/-- The nodes of one scalar that have a mapping are nodes of another. -/
def KeepsMapped (s s' : Scalar) : Prop := ∀ x, s.Subnode x → x.mapping.isSome → s'.Subnode x

theorem exists_of_mem_of_forall₂ {R : Scalar → Scalar → Prop} {xs ys : List Scalar}
    (h : List.Forall₂ R xs ys) : ∀ x ∈ xs, ∃ y ∈ ys, R x y := by
  induction h with
  | nil => exact nofun
  | @cons x y xs ys hxy _ ih =>
    refine List.forall_mem_cons.mpr ⟨⟨y, List.mem_cons_self, hxy⟩, ?_⟩
    intro z hz
    obtain ⟨y', hy', hR⟩ := ih z hz
    exact ⟨y', List.mem_cons_of_mem _ hy', hR⟩

/-- A node without a mapping keeps what its parts keep. -/
theorem KeepsMapped.of_children {s s' : Scalar} (hs : s.mapping = none)
    (h : List.Forall₂ KeepsMapped s.children s'.children) : KeepsMapped s s' := by
  intro x hx hm
  rcases hx.eq_or_child with rfl | ⟨y, hy, hx⟩
  · -- the node itself has no mapping that could be kept
    rw [hs] at hm
    cases hm
  · obtain ⟨y', hy', hkeeps⟩ := exists_of_mem_of_forall₂ h y hy
    exact .of_child hy' (hkeeps x hx hm)

theorem keepsMapped_stepwise : Stepwise KeepsMapped where
  kept _ _ hx _ := hx
  field _ _ hf := .of_children hf .nil
  constant _ _ _ := .of_children rfl .nil
  parameter _ _ _ := .of_children rfl .nil
  binary hleft hright := .of_children rfl (.cons hleft (.cons hright .nil))
  not h := .of_children rfl (.cons h .nil)
  negate h := .of_children rfl (.cons h .nil)
  convert h := .of_children rfl (.cons h .nil)
  conditional htest htrue hfalse :=
    .of_children rfl (.cons htest (.cons htrue (.cons hfalse .nil)))
  function h := .of_children rfl h
  within hitem hvalues := .of_children rfl (.cons hitem (.cons hvalues .nil))

/-- **Inference only adds mappings.** What it makes of a scalar has a mapping at its root, is left
as it is by any further inference, is the same scalar up to mappings and the result types of
operators, and has all nodes in it that had a mapping before. -/
theorem applyMapping_adds {s s' : Scalar} {inferred : Option Mapping}
    (h : s.applyMapping inferred = some s') :
    s'.mapping.isSome ∧ (∀ other, s'.applyMapping other = some s') ∧ s'.erased = s.erased
      ∧ s.KeepsMapped s' := by
  have hroot : s'.mapping.isSome := mapping_isSome_stepwise.applyMapping s h
  refine ⟨hroot, ?_, erased_stepwise.applyMapping s h, keepsMapped_stepwise.applyMapping s h⟩
  intro other
  exact applyMapping_of_isSome hroot

/-- A test without a mapping, over operands of which some have one. -/
def partlyMapped : Scalar :=
  .binary .andAlso
    (.binary .greaterThan (.unary .negate (.parameter "least" .int32 none) .int32 none)
      (.constant (.int 18) .int64 (some ⟨.int64⟩)) .bool none)
    (.within (.function "size" [.parameter "name" .string none] .int32 none)
      (.conditional (.unary .not (.parameter "long" .bool none) .bool none)
        (.parameter "few" .int32 none) (.parameter "many" .int64 (some ⟨.int64⟩)) none) true none)
    .bool none

/-- The same test with all mappings; what stands beside a mapped operand is stored like it. -/
def fullyMapped : Scalar :=
  .binary .andAlso
    (.binary .greaterThan
      (.unary .negate (.parameter "least" .int32 (some ⟨.int32⟩)) .int32 (some ⟨.int32⟩))
      (.constant (.int 18) .int64 (some ⟨.int64⟩)) .bool (some ⟨.bool⟩))
    (.within (.function "size" [.parameter "name" .string (some ⟨.string⟩)] .int32 (some ⟨.int32⟩))
      (.conditional (.unary .not (.parameter "long" .bool (some ⟨.bool⟩)) .bool (some ⟨.bool⟩))
        (.parameter "few" .int32 (some ⟨.int64⟩)) (.parameter "many" .int64 (some ⟨.int64⟩))
        (some ⟨.int64⟩)) true (some ⟨.bool⟩))
    .bool (some ⟨.bool⟩)

theorem applyMapping_adds_partlyMapped :
    partlyMapped.applyMapping none = some fullyMapped
      ∧ fullyMapped.mapping.isSome ∧ (∀ other, fullyMapped.applyMapping other = some fullyMapped)
      ∧ fullyMapped.erased = partlyMapped.erased ∧ partlyMapped.KeepsMapped fullyMapped :=
  ⟨rfl, applyMapping_adds (show partlyMapped.applyMapping none = some fullyMapped from rfl)⟩

end Odm.Scalar
