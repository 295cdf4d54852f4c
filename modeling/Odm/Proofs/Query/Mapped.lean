import Odm.Proofs.Query.Operated
import Odm.Proofs.Schema.Hierarchy

/-!
# Finished scalars have all their mappings

Mapping inference trusts a node that has a mapping and never looks at its parts. So a mapping on
top says nothing by itself: a node with a mapping over a part without one would pass inference
and fail verification. What saves the translator is that no such node is ever made. Everything it
hands around is *well mapped*: a single leaf whose mapping is still open, or a scalar with a
mapping on every node. The functions that build nodes turn well-mapped operands into scalars of
the second kind, and inference closes what is left of the first kind. The rules for methods and
members build nodes in no other way, so whatever is handed on from operands to nodes goes through
them.

Other properties are handed on in the same way. Those that are about one node at a time are
`Lasting`: if named fields have them and whatever is put together over parts, neither inference nor
building can break them.

The same goes for the errors. The translator stops for faults of the query, and the fault that
verification finds is none of them.
-/

namespace Odm

namespace Scalar

/-! ## Mappings on all nodes -/

/-- The nodes of a scalar: the scalar itself, its parts, the parts of these, and so on. -/
inductive Subnode (s : Scalar) : Scalar → Prop where
  | self : Subnode s s
  | part {x y : Scalar} : Subnode s x → y ∈ x.children → Subnode s y

/-- Every node has a mapping. -/
def Mapped (s : Scalar) : Prop := ∀ x, s.Subnode x → x.mapping.isSome

/-- A leaf whose mapping is open, or a scalar with a mapping on every node. -/
inductive WellMapped : Scalar → Prop where
  | field {f : Field} : f.mapping = none → WellMapped (.field f)
  | constant {value : Value} {type : HostType} : WellMapped (.constant value type none)
  | parameter {name : String} {type : HostType} : WellMapped (.parameter name type none)
  | mapped {s : Scalar} : s.Mapped → WellMapped s

theorem Subnode.of_child {s x y : Scalar} (hx : x ∈ s.children) (h : x.Subnode y) :
    s.Subnode y := by
  induction h with
  | self => exact .part .self hx
  | part _ hy ih => exact .part ih hy

/-- A node is the scalar itself or a node of one of its parts. -/
theorem Subnode.eq_or_child {s y : Scalar} (h : s.Subnode y) :
    y = s ∨ ∃ x ∈ s.children, x.Subnode y := by
  induction h with
  | self => exact .inl rfl
  | @part x y _ hy ih =>
    rcases ih with rfl | ⟨z, hz, hx⟩
    · exact .inr ⟨y, hy, .self⟩
    · exact .inr ⟨z, hz, .part hx hy⟩

/-- What every node is, the scalar is and every node of its parts. -/
theorem forall_subnode_iff {p : Scalar → Prop} {s : Scalar} :
    (∀ x, s.Subnode x → p x) ↔ p s ∧ ∀ x ∈ s.children, ∀ y, x.Subnode y → p y := by
  constructor
  · intro h
    exact ⟨h s .self, fun x hx y hy => h y (.of_child hx hy)⟩
  · rintro ⟨hs, hparts⟩ y hy
    rcases hy.eq_or_child with rfl | ⟨x, hx, hy⟩
    · exact hs
    · exact hparts x hx y hy

theorem mapped_iff {s : Scalar} :
    s.Mapped ↔ s.mapping.isSome ∧ ∀ x ∈ s.children, x.Mapped := forall_subnode_iff

theorem Mapped.root {s : Scalar} (h : s.Mapped) : s.mapping.isSome := h s .self

/-! ## Verification -/

mutual

/-- **Verification finds nothing exactly where every node has a mapping.** -/
theorem firstUnmapped?_eq_none_iff : (s : Scalar) → (s.firstUnmapped? = none ↔ s.Mapped)
  | .field f => by
    rw [mapped_iff]
    simp [firstUnmapped?, mapping, children, Option.isSome_iff_ne_none]
  | .constant v t m | .parameter n t m => by
    rw [mapped_iff]
    cases m <;> simp [firstUnmapped?, mapping, children]
  | .binary op l r t m => by
    rw [mapped_iff]
    cases m <;> simp [firstUnmapped?, mapping, children, firstUnmapped?_eq_none_iff l,
      firstUnmapped?_eq_none_iff r]
  | .unary op x t m => by
    rw [mapped_iff]
    cases m <;> simp [firstUnmapped?, mapping, children, firstUnmapped?_eq_none_iff x]
  | .conditional c a b m => by
    rw [mapped_iff]
    cases m <;> simp [firstUnmapped?, mapping, children, firstUnmapped?_eq_none_iff c,
      firstUnmapped?_eq_none_iff a, firstUnmapped?_eq_none_iff b]
  | .function n xs t m => by
    rw [mapped_iff]
    cases m <;> simp [firstUnmapped?, mapping, children, firstUnmappedOf?_eq_none_iff xs]
  | .within x vs n m => by
    rw [mapped_iff]
    cases m <;> simp [firstUnmapped?, mapping, children, firstUnmapped?_eq_none_iff x,
      firstUnmapped?_eq_none_iff vs]

theorem firstUnmappedOf?_eq_none_iff :
    (xs : List Scalar) → (firstUnmappedOf? xs = none ↔ ∀ x ∈ xs, x.Mapped)
  | [] => by simp [firstUnmappedOf?]
  | x :: rest => by
    simp [firstUnmappedOf?, firstUnmapped?_eq_none_iff x, firstUnmappedOf?_eq_none_iff rest]

end

/-! ## Nodes over parts -/

/-- Whether a node is a coalescing, for which document stores have no operator. -/
def isCoalesce : Scalar → Bool
  | .binary .coalesce _ _ _ _ => true
  | _ => false

/-- Whether a node is a field. -/
def isField : Scalar → Bool
  | .field _ => true
  | _ => false

/-- A node that was put together over parts: with a mapping if they have one, and neither a
coalescing nor a field. -/
structure Joins (parts : List Scalar) (s : Scalar) : Prop where
  children : s.children = parts
  mapping : (∀ x ∈ parts, x.mapping.isSome) → s.mapping.isSome
  isCoalesce : s.isCoalesce = false
  isField : s.isField = false

theorem Joins.mapped {parts : List Scalar} {s : Scalar} (h : Joins parts s)
    (hparts : ∀ x ∈ parts, x.Mapped) : s.Mapped := by
  refine mapped_iff.mpr ⟨h.mapping fun x hx => (hparts x hx).root, ?_⟩
  rw [h.children]
  exact hparts

/-! ## Inference -/

theorem applyMapping_of_isSome {s : Scalar} {inferred : Option Mapping}
    (h : s.mapping.isSome) : s.applyMapping inferred = some s := by
  cases s <;> exact if_pos h

theorem mapped_field {f : Field} (h : f.mapping.isSome) : (Scalar.field f).Mapped :=
  mapped_iff.mpr ⟨h, nofun⟩

theorem mapped_constant {value : Value} {type : HostType} {m : Mapping} :
    (Scalar.constant value type (some m)).Mapped := mapped_iff.mpr ⟨rfl, nofun⟩

theorem mapped_parameter {name : String} {type : HostType} {m : Mapping} :
    (Scalar.parameter name type (some m)).Mapped := mapped_iff.mpr ⟨rfl, nofun⟩

/-- **Inference gives a well-mapped scalar all its mappings.** -/
theorem WellMapped.applyMapping {s s' : Scalar} {inferred : Option Mapping}
    (hs : s.WellMapped) (h : s.applyMapping inferred = some s') : s'.Mapped := by
  cases hs with
  | @field f hf =>
    -- an open field gets some mapping, its own or the inferred one
    rw [Scalar.applyMapping, if_neg (by simp [hf])] at h
    obtain ⟨m, _, rfl⟩ := Option.map_eq_some_iff.mp h
    exact mapped_field rfl
  | constant =>
    obtain ⟨m, _, rfl⟩ := Option.map_eq_some_iff.mp h
    exact mapped_constant
  | parameter =>
    obtain ⟨m, _, rfl⟩ := Option.map_eq_some_iff.mp h
    exact mapped_parameter
  -- a mapped scalar is left as it is
  | mapped hs =>
    rw [applyMapping_of_isSome hs.root] at h
    cases h
    exact hs

/-- Inference over a list infers each scalar by itself. -/
theorem applyMappings_eq_some : ∀ {xs ys : List Scalar}, applyMappings xs = some ys →
    ∀ y ∈ ys, ∃ x ∈ xs, x.applyMapping none = some y := by
  intro xs
  induction xs with
  | nil =>
    intro ys h
    cases h
    exact nofun
  | cons x rest ih =>
    intro ys h
    simp only [applyMappings, Option.bind_eq_bind, Option.bind_eq_some_iff,
      Option.some.injEq] at h
    obtain ⟨y, hy, ys, hys, rfl⟩ := h
    refine List.forall_mem_cons.mpr ⟨⟨x, List.mem_cons_self, hy⟩, ?_⟩
    intro z hz
    obtain ⟨x', hx', hz⟩ := ih hys z hz
    exact ⟨x', List.mem_cons_of_mem _ hx', hz⟩

/-! ## Building nodes -/

/-- A node that was put together over what inference makes of operands. -/
def Rebuilt (operands : List Scalar) (s : Scalar) : Prop :=
  ∃ parts, Joins parts s
    ∧ ∀ y ∈ parts, ∃ x ∈ operands, ∃ inferred, x.applyMapping inferred = some y

/-- What is put together over well-mapped operands has all its mappings. -/
theorem Rebuilt.mapped {operands : List Scalar} {s : Scalar} (h : Rebuilt operands s)
    (hoperands : ∀ x ∈ operands, x.WellMapped) : s.Mapped := by
  obtain ⟨parts, hjoins, hparts⟩ := h
  refine hjoins.mapped fun y hy => ?_
  obtain ⟨x, hx, inferred, hy⟩ := hparts y hy
  exact (hoperands x hx).applyMapping hy

section Join

variable {s : Scalar} {m m' m'' : Option Mapping}

theorem joinBinary_rebuilt {op : BinaryOp} {left right : Scalar}
    (h : joinBinary op (left.applyMapping m) (right.applyMapping m') = some s) :
    Rebuilt [left, right] s := by
  obtain ⟨hop, l, r, hl, hr, rfl⟩ := joinBinary_eq_some h
  refine ⟨[l, r], ⟨rfl, ?_, ?_, rfl⟩, by simpa using ⟨.inl ⟨_, hl⟩, .inr ⟨_, hr⟩⟩⟩
  · intro hparts
    rw [Scalar.mapping]
    split
    · rfl
    · exact hparts l (by simp)
  · unfold Scalar.isCoalesce
    split
    · rename_i heq
      cases heq
      exact absurd rfl hop
    · rfl

theorem joinUnary_rebuilt {op : ScalarUnaryOp} {type : HostType} {operand : Scalar}
    (h : joinUnary op type (operand.applyMapping m) = some s) : Rebuilt [operand] s := by
  obtain ⟨x, type', m, hx, rfl, hm⟩ := joinUnary_eq_some h
  refine ⟨[x], ⟨rfl, ?_, rfl, rfl⟩, by simpa using ⟨_, hx⟩⟩
  intro hparts
  rcases hm with rfl | rfl
  · rfl
  · exact hparts x (by simp)

theorem joinConditional_rebuilt {test ifTrue ifFalse : Scalar}
    (h : joinConditional (test.applyMapping m) (ifTrue.applyMapping m')
      (ifFalse.applyMapping m'') = some s) : Rebuilt [test, ifTrue, ifFalse] s := by
  simp only [joinConditional, Option.bind_eq_bind, Option.bind_eq_some_iff,
    Option.some.injEq] at h
  obtain ⟨c, hc, a, ha, b, hb, rfl⟩ := h
  refine ⟨[c, a, b], ⟨rfl, ?_, rfl, rfl⟩, by
    simpa using ⟨.inl ⟨_, hc⟩, .inr (.inl ⟨_, ha⟩), .inr (.inr ⟨_, hb⟩)⟩⟩
  intro hparts
  obtain ⟨m, hm⟩ := Option.isSome_iff_exists.mp (hparts a (by simp))
  rw [Scalar.mapping, sharedMapping, hm]
  rfl

theorem joinFunction_rebuilt {name : String} {type : HostType} {arguments : List Scalar}
    (h : joinFunction name type (applyMappings arguments) = some s) : Rebuilt arguments s := by
  simp only [joinFunction, Option.bind_eq_bind, Option.bind_eq_some_iff,
    Option.some.injEq] at h
  obtain ⟨xs, hxs, m, _, rfl⟩ := h
  refine ⟨xs, ⟨rfl, fun _ => rfl, rfl, rfl⟩, ?_⟩
  intro y hy
  obtain ⟨x, hx, hy⟩ := applyMappings_eq_some hxs y hy
  exact ⟨x, hx, none, hy⟩

theorem joinWithin_rebuilt {negated : Bool} {item values : Scalar}
    (h : joinWithin negated (item.applyMapping m) (values.applyMapping m') = some s) :
    Rebuilt [item, values] s := by
  simp only [joinWithin, Option.bind_eq_bind, Option.bind_eq_some_iff,
    Option.some.injEq] at h
  obtain ⟨x, hx, vs, hvs, rfl⟩ := h
  exact ⟨[x, vs], ⟨rfl, fun _ => rfl, rfl, rfl⟩, by simpa using ⟨.inl ⟨_, hx⟩, .inr ⟨_, hvs⟩⟩⟩

end Join

/-- The scalars that can be built over operands. -/
inductive BuiltFrom : List Scalar → Scalar → Prop where
  | combine {op : BinaryOp} {left right s : Scalar} :
    left.combine op right = some s → BuiltFrom [left, right] s
  | not {operand s : Scalar} : operand.not = some s → BuiltFrom [operand] s
  | negate {operand s : Scalar} : operand.negate = some s → BuiltFrom [operand] s
  | convert {operand s : Scalar} {type : HostType} :
    operand.convert type = some s → BuiltFrom [operand] s
  | choose {test ifTrue ifFalse s : Scalar} :
    choose test ifTrue ifFalse = some s → BuiltFrom [test, ifTrue, ifFalse] s
  | call {name : String} {arguments : List Scalar} {type : HostType} {s : Scalar} :
    call name arguments type = some s → BuiltFrom arguments s
  | isIn {item values s : Scalar} {negated : Bool} :
    item.isIn values negated = some s → BuiltFrom [item, values] s

theorem BuiltFrom.rebuilt {operands : List Scalar} {s : Scalar} (h : BuiltFrom operands s) :
    Rebuilt operands s := by
  cases h with
  | combine h => exact joinBinary_rebuilt h
  | not h => exact joinUnary_rebuilt h
  | negate h => exact joinUnary_rebuilt h
  | convert h => exact joinUnary_rebuilt h
  | choose h => exact joinConditional_rebuilt h
  | call h => exact joinFunction_rebuilt h
  | isIn h => exact joinWithin_rebuilt h

/-- **Whatever is built over well-mapped operands has all its mappings.** -/
theorem BuiltFrom.mapped {operands : List Scalar} {s : Scalar} (h : BuiltFrom operands s)
    (hoperands : ∀ x ∈ operands, x.WellMapped) : s.Mapped := h.rebuilt.mapped hoperands

/-! ## What is handed on -/

/-- A property that leaves have, that parts have if the whole has it, and that is handed on to
whatever is built over operands that have it. Members are bound to no fields but those with a
name. -/
structure Hereditary (P : Scalar → Prop) : Prop where
  literal : ∀ value type, P (.literal value type)
  placeholder : ∀ name type, P (.placeholder name type)
  field : ∀ f, f.name ≠ "" → P (.field f)
  part : ∀ {s x}, P s → x ∈ s.children → P x
  built : ∀ {operands s}, BuiltFrom operands s → (∀ x ∈ operands, P x) → P s

theorem hereditary_wellMapped : Hereditary WellMapped where
  literal _ _ := .constant
  placeholder _ _ := .parameter
  field f _ := by
    -- a field is well mapped in any schema, because a leaf may have its mapping or not
    cases hm : f.mapping with
    | none => exact .field hm
    | some m => exact .mapped (mapped_field (by rw [hm]; rfl))
  part hs hx := by
    cases hs with
    | mapped hs => exact .mapped ((mapped_iff.mp hs).2 _ hx)
    | field _ => cases hx
    | constant => cases hx
    | parameter => cases hx
  built h hoperands := .mapped (h.mapped hoperands)

/-! ## What all nodes are -/

theorem sizeOf_child_lt {s x : Scalar} (hx : x ∈ s.children) : sizeOf x < sizeOf s := by
  cases s with
  | field f => cases hx
  | constant value type m => cases hx
  | parameter name type m => cases hx
  | binary op left right type m =>
    simp only [children, List.mem_cons, List.not_mem_nil, or_false] at hx
    rcases hx with rfl | rfl <;> simp only [binary.sizeOf_spec] <;> omega
  | unary op operand type m =>
    simp only [children, List.mem_singleton] at hx
    simp only [unary.sizeOf_spec, hx]
    omega
  | conditional test ifTrue ifFalse m =>
    simp only [children, List.mem_cons, List.not_mem_nil, or_false] at hx
    rcases hx with rfl | rfl | rfl <;> simp only [conditional.sizeOf_spec] <;> omega
  | function name arguments type m =>
    -- arguments are a list, of which each member is smaller
    have hlt := List.sizeOf_lt_of_mem (show x ∈ arguments from hx)
    simp only [function.sizeOf_spec]
    omega
  | within item values negated m =>
    simp only [children, List.mem_cons, List.not_mem_nil, or_false] at hx
    rcases hx with rfl | rfl <;> simp only [within.sizeOf_spec] <;> omega

/-- Inference leaves a scalar as it is, gives a field its mapping, or puts a node together anew. -/
theorem eq_or_rebuilt_of_applyMapping {s s' : Scalar} {inferred : Option Mapping}
    (h : s.applyMapping inferred = some s') : s' = s
      ∨ (∃ f m, s = .field f ∧ s' = .field { f with mapping := m }) ∨ Rebuilt s.children s' := by
  -- a root that has a mapping is not touched again
  by_cases hs : s.mapping.isSome
  · rw [applyMapping_of_isSome hs] at h
    exact .inl (Option.some.inj h).symm
  · refine .inr ?_
    cases s with
    | field f =>
      rw [applyMapping, if_neg (show ¬ f.mapping.isSome from hs)] at h
      obtain ⟨m, _, rfl⟩ := Option.map_eq_some_iff.mp h
      exact .inl ⟨f, some m, rfl, rfl⟩
    | constant value type m =>
      rw [applyMapping, if_neg (show ¬ m.isSome from hs)] at h
      obtain ⟨m, _, rfl⟩ := Option.map_eq_some_iff.mp h
      exact .inr ⟨[], ⟨rfl, fun _ => rfl, rfl, rfl⟩, List.forall_mem_nil _⟩
    | parameter name type m =>
      rw [applyMapping, if_neg (show ¬ m.isSome from hs)] at h
      obtain ⟨m, _, rfl⟩ := Option.map_eq_some_iff.mp h
      exact .inr ⟨[], ⟨rfl, fun _ => rfl, rfl, rfl⟩, List.forall_mem_nil _⟩
    | binary op left right type m =>
      rw [applyMapping, if_neg (show ¬ m.isSome from hs)] at h
      exact .inr (joinBinary_rebuilt h)
    | unary op operand type m =>
      rw [applyMapping, if_neg (show ¬ m.isSome from hs)] at h
      exact .inr (joinUnary_rebuilt h)
    | conditional test ifTrue ifFalse m =>
      rw [applyMapping, if_neg (show ¬ m.isSome from hs)] at h
      exact .inr (joinConditional_rebuilt h)
    | function name arguments type m =>
      rw [applyMapping, if_neg (show ¬ m.isSome from hs)] at h
      exact .inr (joinFunction_rebuilt h)
    | within item values negated m =>
      rw [applyMapping, if_neg (show ¬ m.isSome from hs)] at h
      exact .inr (joinWithin_rebuilt h)

/-- A property of single nodes that named fields have, and whatever is put together. -/
structure Lasting (p : Scalar → Prop) : Prop where
  literal : ∀ value type, p (.literal value type)
  placeholder : ∀ name type, p (.placeholder name type)
  field : ∀ f, f.name ≠ "" → p (.field f)
  remapped : ∀ f m, p (.field f) → p (.field { f with mapping := m })
  joined : ∀ {parts s}, Joins parts s → p s

namespace Lasting

variable {p : Scalar → Prop}

theorem of_joins (hp : Lasting p) {parts : List Scalar} {s : Scalar} (h : Joins parts s)
    (hparts : ∀ x ∈ parts, ∀ y, x.Subnode y → p y) : ∀ y, s.Subnode y → p y := by
  refine forall_subnode_iff.mpr ⟨hp.joined h, ?_⟩
  rw [h.children]
  exact hparts

theorem of_leaf {s : Scalar} (h : p s) (hs : s.children = []) : ∀ y, s.Subnode y → p y := by
  refine forall_subnode_iff.mpr ⟨h, ?_⟩
  rw [hs]
  exact nofun

/-- **What all nodes are, inference keeps.** -/
theorem applyMapping (hp : Lasting p) {s s' : Scalar} {inferred : Option Mapping}
    (hs : ∀ y, s.Subnode y → p y) (h : s.applyMapping inferred = some s') :
    ∀ y, s'.Subnode y → p y := by
  rcases eq_or_rebuilt_of_applyMapping h with rfl | ⟨f, m, rfl, rfl⟩ | ⟨parts, hjoins, hparts⟩
  · exact hs
  · exact of_leaf (hp.remapped f m (hs _ .self)) rfl
  · refine hp.of_joins hjoins fun y hy => ?_
    obtain ⟨x, hx, inferred, hy⟩ := hparts y hy
    exact applyMapping hp ((forall_subnode_iff.mp hs).2 x hx) hy
termination_by sizeOf s
decreasing_by exact sizeOf_child_lt hx

/-- **What all nodes are, building hands on.** -/
theorem hereditary (hp : Lasting p) : Hereditary fun s => ∀ y, s.Subnode y → p y where
  literal value type := of_leaf (hp.literal value type) rfl
  placeholder name type := of_leaf (hp.placeholder name type) rfl
  field f hf := of_leaf (hp.field f hf) rfl
  part hs hx := (forall_subnode_iff.mp hs).2 _ hx
  built h hoperands := by
    obtain ⟨parts, hjoins, hparts⟩ := h.rebuilt
    refine hp.of_joins hjoins fun y hy => ?_
    obtain ⟨x, hx, inferred, hy⟩ := hparts y hy
    exact hp.applyMapping (hoperands x hx) hy

end Lasting

end Scalar

/-! ## Rules for methods and members -/

/-- A rule for methods makes well-mapped scalars of well-mapped operands. -/
def MethodRule.Sound (rule : MethodRule) : Prop :=
  ∀ object method arguments s, (∀ x, object = some x → x.WellMapped) →
    (∀ x ∈ arguments, x.WellMapped) → rule object method arguments = some s → s.WellMapped

/-- A rule for members makes well-mapped scalars of well-mapped operands. -/
def MemberRule.Sound (rule : MemberRule) : Prop :=
  ∀ object name type s, (∀ x, object = some x → x.WellMapped) →
    rule object name type = some s → s.WellMapped

/-- A rule for methods makes scalars that have the property of operands that have it. -/
def MethodRule.Keeps (P : Scalar → Prop) (rule : MethodRule) : Prop :=
  ∀ object method arguments s, (∀ x, object = some x → P x) → (∀ x ∈ arguments, P x) →
    rule object method arguments = some s → P s

/-- A rule for members makes scalars that have the property of operands that have it. -/
def MemberRule.Keeps (P : Scalar → Prop) (rule : MemberRule) : Prop :=
  ∀ object name type s, (∀ x, object = some x → P x) → rule object name type = some s → P s

namespace MethodRule

open Scalar

variable {P : Scalar → Prop}

theorem unboxed_keeps (hP : Hereditary P) {s : Scalar} (hs : P s) : P (unboxed s) := by
  unfold unboxed
  split
  · exact hP.part hs (by simp [children])
  · exact hs

theorem equate_keeps (hP : Hereditary P) {left right s : Scalar} (hl : P left) (hr : P right)
    (h : equate left right = some s) : P s := by
  unfold equate at h
  split at h
  · exact hP.built (.combine h) (by simp [hl, hr])
  · cases h
    exact hP.literal _ _

theorem equals_keeps (hP : Hereditary P) : Keeps P equals := by
  intro object method arguments s hobject harguments h
  unfold equals at h
  split at h
  · split at h
    · exact equate_keeps hP (hobject _ rfl) (unboxed_keeps hP (harguments _ (by simp))) h
    · exact equate_keeps hP (unboxed_keeps hP (harguments _ (by simp)))
        (unboxed_keeps hP (harguments _ (by simp))) h
    · cases h
  · cases h

theorem contains_keeps (hP : Hereditary P) : Keeps P contains := by
  intro object method arguments s hobject harguments h
  unfold contains at h
  split at h
  · split at h
    · exact hP.built (.isIn h) (by simpa [and_comm] using harguments)
    · cases h
  · rename_i values item
    split at h
    · refine hP.built (.isIn h) ?_
      have hitem := harguments item (by simp)
      simp [hobject values rfl, hitem]
    · cases h
  · cases h

theorem byName_keeps (hP : Hereditary P) (name function : String) (type : HostType) :
    Keeps P (byName name function type) := by
  intro object method arguments s hobject harguments h
  unfold byName at h
  split at h
  · refine hP.built (.call h) ?_
    intro x hx
    rcases List.mem_append.mp hx with hx | hx
    · exact hobject x (by simpa using hx)
    · exact harguments x hx
  · cases h

theorem byName_sound (name function : String) (type : HostType) :
    Sound (byName name function type) := byName_keeps hereditary_wellMapped name function type

theorem firstOf_keeps {rules : List MethodRule} (hrules : ∀ rule ∈ rules, rule.Keeps P) :
    Keeps P (firstOf rules) := by
  intro object method arguments s hobject harguments h
  obtain ⟨rule, hrule, h⟩ := List.exists_of_findSome?_eq_some h
  exact hrules rule hrule object method arguments s hobject harguments h

/-- The built-in rules keep what is handed on, and so do they behind rules that keep it. -/
theorem withBuiltIn_keeps (hP : Hereditary P) {rules : List MethodRule}
    (hrules : ∀ rule ∈ rules, rule.Keeps P) : Keeps P (firstOf (withBuiltIn rules)) := by
  refine firstOf_keeps ?_
  intro rule hrule
  rcases List.mem_append.mp hrule with hrule | hrule
  · exact hrules rule hrule
  · rcases List.mem_cons.mp hrule with rfl | hrule
    · exact equals_keeps hP
    · rw [List.mem_singleton.mp hrule]
      exact contains_keeps hP

end MethodRule

namespace MemberRule

variable {P : Scalar → Prop}

theorem firstOf_keeps {rules : List MemberRule} (hrules : ∀ rule ∈ rules, rule.Keeps P) :
    Keeps P (firstOf rules) := by
  intro object name type s hobject h
  obtain ⟨rule, hrule, h⟩ := List.exists_of_findSome?_eq_some h
  exact hrules rule hrule object name type s hobject h

end MemberRule

end Odm
