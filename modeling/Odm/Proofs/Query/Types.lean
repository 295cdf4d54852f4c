import Odm.Proofs.Query.Verification

/-!
# Static types and the types of scalars

An expression has a static type, and so has the scalar that it is translated to. The two need not
be the same: conversions that mean nothing to the document store leave no trace, and what is
computed from two scalars has the type of the left one. `KeepsType` collects the expressions whose
scalar has their static type, nullability aside. What it leaves out are conversions to an interface
or to the common base of enumerations, which are dropped, and arithmetic over an operand whose own
widening was dropped.

The conversions that the compiler puts around an operand of a binary operator are dropped before it
is visited. Where an expression is translated with them as well, it is translated to the same.
-/

namespace Odm

/-! ## Types and inference -/

namespace Scalar

variable {s s' : Scalar}

/-- A scalar without the mapping that a leaf may have. -/
def bare : Scalar → Scalar
  | .field f => .field { f with mapping := none }
  | .constant value type _ => .constant value type none
  | .parameter name type _ => .parameter name type none
  | s => s

/-- A leaf without a mapping. Inference puts one there and changes nothing else. -/
structure Open (s : Scalar) (put : Mapping → Scalar) : Prop where
  mapping : s.mapping = none
  applyMapping : ∀ inferred, s.applyMapping inferred = (resolveMapping inferred s.type).map put
  put_mapping : ∀ m, (put m).mapping = some m
  put_type : ∀ m, (put m).type = s.type
  put_bare : ∀ m, (put m).bare = s.bare

/-- A well-mapped scalar that is not mapped yet is an open leaf. -/
theorem WellMapped.mapped_or_open (hs : s.WellMapped) : s.Mapped ∨ ∃ put, s.Open put := by
  cases hs with
  | @field f hf =>
    -- the field is given the mapping in the end, whatever is inferred
    refine .inr ⟨fun m => .field { f with mapping := some m }, hf, ?_, ?_, ?_, ?_⟩
    · intro inferred
      rw [Scalar.applyMapping, if_neg (by simp [hf])]
      rfl
    all_goals exact fun _ => rfl
  | @constant value type =>
    refine .inr ⟨fun m => .constant value type (some m), rfl, ?_, ?_, ?_, ?_⟩
    all_goals exact fun _ => rfl
  | @parameter name type =>
    refine .inr ⟨fun m => .parameter name type (some m), rfl, ?_, ?_, ?_, ?_⟩
    all_goals exact fun _ => rfl
  | mapped hs => exact .inl hs

/-- Inference finds mappings, and keeps types and all else. -/
theorem WellMapped.keeps_applyMapping {inferred : Option Mapping} (hs : s.WellMapped)
    (h : s.applyMapping inferred = some s') : s'.type = s.type ∧ s'.bare = s.bare := by
  rcases hs.mapped_or_open with hs | ⟨put, hs⟩
  · rw [applyMapping_of_isSome hs.root] at h
    cases h
    exact ⟨rfl, rfl⟩
  · rw [hs.applyMapping] at h
    obtain ⟨m, _, rfl⟩ := Option.map_eq_some_iff.mp h
    exact ⟨hs.put_type m, hs.put_bare m⟩

theorem WellMapped.type_applyMapping {inferred : Option Mapping} (hs : s.WellMapped)
    (h : s.applyMapping inferred = some s') : s'.type = s.type := (hs.keeps_applyMapping h).1

theorem type_combine_of_isPredicate {op : BinaryOp} {left right : Scalar} (hop : op.isPredicate)
    (h : left.combine op right = some s) : s.type = .bool := by
  obtain ⟨_, l, r, _, _, rfl⟩ := joinBinary_eq_some h
  exact if_pos hop

/-- Arithmetic has the type of its left operand. -/
theorem type_combine {op : BinaryOp} {left right : Scalar} (hop : ¬ op.isPredicate)
    (hleft : left.WellMapped) (h : left.combine op right = some s) : s.type = left.type := by
  obtain ⟨_, l, r, hl, _, rfl⟩ := joinBinary_eq_some h
  rw [← hleft.type_applyMapping hl]
  exact if_neg hop

/-- A conditional has the type of its first branch. -/
theorem type_choose {test ifTrue ifFalse : Scalar} (hifTrue : ifTrue.WellMapped)
    (h : choose test ifTrue ifFalse = some s) : s.type = ifTrue.type := by
  simp only [choose, joinConditional, Option.bind_eq_bind, Option.bind_eq_some_iff,
    Option.some.injEq] at h
  obtain ⟨c, _, a, ha, b, _, rfl⟩ := h
  have htype : a.type = ifTrue.type := hifTrue.type_applyMapping ha
  exact htype

theorem type_not {operand : Scalar} (h : operand.not = some s) : s.type = .bool := by
  unfold Scalar.not joinUnary at h
  obtain ⟨x, _, h⟩ := Option.bind_eq_some_iff.mp h
  cases h
  rfl

theorem type_negate {operand : Scalar} (hoperand : operand.WellMapped)
    (h : operand.negate = some s) : s.type = operand.type := by
  unfold negate joinUnary at h
  obtain ⟨x, hx, h⟩ := Option.bind_eq_some_iff.mp h
  cases h
  have htype : x.type = operand.type := hoperand.type_applyMapping hx
  exact htype

/-- A conversion has the type that is asked for, and the converted scalar behind it. -/
theorem convert_eq_some {operand : Scalar} {type : HostType} (h : operand.convert type = some s) :
    ∃ x, operand.applyMapping none = some x ∧ s = .unary .convert x type x.mapping := by
  unfold convert joinUnary at h
  obtain ⟨x, hx, h⟩ := Option.bind_eq_some_iff.mp h
  cases h
  exact ⟨x, hx, rfl⟩

end Scalar

/-- The built-in methods are tests. -/
theorem MethodRule.type_of_builtIn {object : Option Scalar} {method : Method}
    {arguments : List Scalar} {s : Scalar}
    (h : firstOf (withBuiltIn []) object method arguments = some s) : s.type = .bool := by
  obtain ⟨rule, hrule, h⟩ := List.exists_of_findSome?_eq_some h
  -- equality is a comparison, or a constant where types differ
  have hequate : ∀ {left right : Scalar}, equate left right = some s → s.type = .bool := by
    intro left right h
    unfold equate at h
    split at h
    · exact Scalar.type_combine_of_isPredicate rfl h
    · cases h
      rfl
  -- and so is being among some values
  have hisIn : ∀ {item values : Scalar}, item.isIn values false = some s → s.type = .bool := by
    intro item values h
    simp only [Scalar.isIn, Scalar.joinWithin, Option.bind_eq_bind, Option.bind_eq_some_iff,
      Option.some.injEq] at h
    obtain ⟨x, _, vs, _, rfl⟩ := h
    rfl
  rcases List.mem_cons.mp hrule with rfl | hrule
  · unfold equals at h
    split at h
    · split at h
      · exact hequate h
      · exact hequate h
      · cases h
    · cases h
  · rw [List.mem_singleton.mp hrule] at h
    unfold contains at h
    split at h
    · split at h
      · exact hisIn h
      · cases h
    · split at h
      · exact hisIn h
      · cases h
    · cases h

/-! ## Conversions of operands -/

namespace HostExpr

/-- An expression without the compiler's own conversions around it. -/
def stripped : HostExpr → HostExpr
  | .unary .convert operand type =>
    if isImplicitConversion operand.type type then operand.stripped
    else .unary .convert operand type
  | e => e

theorem embedded_stripped (e : HostExpr) : e.stripped.embedded = e.embedded := by
  fun_induction stripped e with
  | case1 operand type h ih => rw [ih, embedded]
  | case2 operand type h => rfl
  | case3 e h => rfl

/-- The compiler converts nothing to object but objects. -/
theorem isImplicitConversion_object {operand target : HostType}
    (h : isImplicitConversion operand target) (hobject : operand.unwrap = .object) :
    target.unwrap = .object := by
  unfold isImplicitConversion at h
  rw [hobject] at h
  have hsame : (decide (HostType.object = target.unwrap)
      || decide (target.unwrap = .int32) && false) = true := h
  rw [Bool.and_false, Bool.or_false, decide_eq_true_iff] at hsame
  exact hsame.symm

end HostExpr

namespace Translator

variable {t : Translator} {q : Select}

/-- An operand is visited without the compiler's own conversions around it. -/
theorem visit_stripped (e : HostExpr) : t.visit q true e = t.visit q false e.stripped := by
  fun_induction HostExpr.stripped e with
  | case1 operand type h ih => rw [visit, if_pos (by simp [h]), ih]
  | case2 operand type h => rw [visit, visit, if_neg (by simp [h]), if_neg (by simp)]
  | case3 e h =>
    cases e with
    | unary op operand type =>
      have hop : op ≠ .convert := by
        rintro rfl
        exact h operand type rfl
      rw [visit, visit, if_neg (by simp [hop]), if_neg (by simp)]
    | _ => rw [visit, visit]

theorem visit_convert_yields {operand : HostExpr} {type : HostType} {s : Scalar}
    (h : (t.visit q false (.unary .convert operand type)).Yields (.scalar s)) :
    ∃ x, (t.visit q false operand).Yields (.scalar x) ∧ convert x type = some s := by
  rw [visit, if_neg (by simp)] at h
  obtain ⟨x, hx, h⟩ := Attempt.yields_bind.mp h
  exact ⟨x, Attempt.yields_scalar.mp hx, Attempt.yields_node.mp h⟩

/-- A conversion is dropped if it changes nothing, or is to an interface or the common base of
enumerations. Otherwise it is kept, and only conversions to object are. -/
theorem convert_eq_some {operand s : Scalar} {type : HostType}
    (h : convert operand type = some s) :
    (s = operand ∧ (type.isInterface ∨ type.unwrap = operand.type ∨ type.unwrap = .enumBase))
      ∨ type = .object ∧ operand.convert .object = some s := by
  unfold convert at h
  -- the conversion is dropped
  split at h
  · rename_i hdropped
    simp only [Bool.or_eq_true, Bool.and_eq_true, decide_eq_true_eq] at hdropped
    cases h
    refine .inl ⟨rfl, ?_⟩
    rcases hdropped with (⟨hinterface, _⟩ | hsame) | henum
    · exact .inl hinterface
    · exact .inr (.inl hsame)
    · exact .inr (.inr henum)
  · split at h
    · rename_i hobject
      exact .inr ⟨hobject, h⟩
    · cases h

/-- What is converted to object has that type. -/
theorem type_of_convert_object {operand s : Scalar} (h : operand.convert .object = some s) :
    s.type = .object := by
  obtain ⟨_, _, rfl⟩ := Scalar.convert_eq_some h
  rfl

/-- **Dropped conversions make no difference** to an expression that is translated with them. -/
theorem yields_of_stripped {e : HostExpr} {s : Scalar} (hobject : e.type.unwrap ≠ .object)
    (h : (t.visit q false e).Yields (.scalar s)) : (t.visit q true e).Yields (.scalar s) := by
  rw [visit_stripped]
  fun_induction HostExpr.stripped e with
  | case1 operand type himplicit ih =>
    -- only conversions that do not lead to object are stripped
    have hinner : operand.type.unwrap ≠ .object := fun hoperand =>
      hobject (HostExpr.isImplicitConversion_object himplicit hoperand)
    have htype : type ≠ .object := by
      rintro rfl
      exact hobject rfl
    obtain ⟨x, hx, hconvert⟩ := visit_convert_yields h
    rcases convert_eq_some hconvert with ⟨rfl, _⟩ | ⟨hboxed, _⟩
    · exact ih hinner hx
    · exact absurd hboxed htype
  | case2 operand type _ => exact h
  | case3 e _ => exact h

end Translator

/-! ## Expressions that keep their types -/

/-- The expressions that no scalar stands for where no rules are plugged in. -/
inductive HostExpr.IsUntranslated : HostExpr → Prop where
  | staticMember {name : String} {type : HostType} : IsUntranslated (.staticMember name type)
  | unary {op : HostUnaryOp} {operand : HostExpr} {type : HostType} :
    op = .typeAs ∨ op = .arrayLength ∨ op = .quote → IsUntranslated (.unary op operand type)
  | newArray {element : HostType} {items : List HostExpr} :
    IsUntranslated (.newArray element items)
  | listInit {type : HostType} {members : List String} {arguments items : List HostExpr} :
    IsUntranslated (.listInit type members arguments items)
  | lambda {parameters : List (String × HostType)} {body : HostExpr} :
    IsUntranslated (.lambda parameters body)
  | invoke {function : HostExpr} {arguments : List HostExpr} {type : HostType} :
    IsUntranslated (.invoke function arguments type)
  | projected {path : OutputPath} {type : HostType} : IsUntranslated (.projected path type)
  | shaper {entityType : String} {buffer : HostExpr} :
    IsUntranslated buffer → IsUntranslated (.shaper entityType buffer)

namespace Translator

/-- The expressions whose scalar, if they have one, has their static type up to nullability. Members
have the type of the property that they are bound to, calls that are no access to a property are
truth values, and the types of operators are those of the host language. -/
inductive KeepsType (t : Translator) (q : Select) : HostExpr → Prop where
  | constant {value : Value} {type : HostType} : KeepsType t q (.constant value type)
  | parameter {name : String} {type : HostType} : KeepsType t q (.parameter name type)
  | construct {type : HostType} {members : List String} {arguments : List HostExpr} :
    KeepsType t q (.construct type members arguments)
  | memberInit {type : HostType} {members : List String} {arguments : List HostExpr}
      {bindings : List (String × HostExpr)} :
    KeepsType t q (.memberInit type members arguments bindings)
  | query {node : Node} : KeepsType t q (.query node)
  | member {source : HostExpr} {name : String} {type : HostType} :
    (∀ f, (t.visit q false (.member source name type)).Yields (.scalar (.field f)) →
      f.property.type = type) →
    KeepsType t q (.member source name type)
  | property {access source : HostExpr} {name : String} :
    access.propertyArguments? = some (source, name) →
    (∀ f, (t.visit q false access).Yields (.scalar (.field f)) →
      f.property.type = access.type) →
    KeepsType t q access
  | call {object : HostExpr} {method : Method} {arguments : List HostExpr} :
    ¬ HostExpr.isAccess method arguments → method.returnType.unwrap = .bool →
    KeepsType t q (.call object method arguments)
  | staticCall {method : Method} {arguments : List HostExpr} :
    ¬ HostExpr.isAccess method arguments → method.returnType.unwrap = .bool →
    KeepsType t q (.staticCall method arguments)
  | predicate {op : BinaryOp} {left right : HostExpr} {type : HostType} :
    op.isPredicate → type.unwrap = .bool → KeepsType t q (.binary op left right type)
  | coalesce {left right : HostExpr} {type : HostType} :
    KeepsType t q left → type.unwrap = left.type.unwrap →
    KeepsType t q (.binary .coalesce left right type)
  /-- No conversion that is dropped around the left operand may have changed its type. -/
  | arithmetic {op : BinaryOp} {left right : HostExpr} {type : HostType} :
    ¬ op.isPredicate → op ≠ .coalesce → KeepsType t q left.stripped →
    type.unwrap = left.stripped.type.unwrap → KeepsType t q (.binary op left right type)
  | not {operand : HostExpr} {type : HostType} :
    type.unwrap = .bool → KeepsType t q (.unary .not operand type)
  | negate {operand : HostExpr} {type : HostType} :
    KeepsType t q operand → type.unwrap = operand.type.unwrap →
    KeepsType t q (.unary .negate operand type)
  | convert {operand : HostExpr} {type : HostType} :
    ¬ type.isInterface → type.unwrap ≠ .enumBase → type.unwrap.unwrap = type.unwrap →
    KeepsType t q (.unary .convert operand type)
  | identity {operand : HostExpr} {type : HostType} :
    KeepsType t q operand → type.unwrap = operand.type.unwrap →
    KeepsType t q (.unary .convert operand type)
  | conditional {test ifTrue ifFalse : HostExpr} {type : HostType} :
    KeepsType t q ifTrue → type.unwrap = ifTrue.type.unwrap →
    KeepsType t q (.conditional test ifTrue ifFalse type)
  | untranslated {e : HostExpr} : e.IsUntranslated → KeepsType t q e

/-- No rules are plugged in, and the statement projects no scalars. -/
structure Plain (t : Translator) (q : Select) : Prop where
  methods : t.methods = []
  members : t.members = []
  projects : ∀ entry ∈ q.mapping, ∀ s, entry.2 ≠ .scalar s

variable {t : Translator} {q : Select}

theorem Plain.sound (h : t.Plain q) : t.Sound where
  methods := by
    rw [h.methods]
    exact nofun
  members := by
    rw [h.members]
    exact nofun

theorem Plain.wellMapped (h : t.Plain q) : q.WellMapped := by
  intro entry hentry s hs
  exact absurd hs (h.projects entry hentry s)

/-- A query that was just created projects its entity. -/
theorem plain_of_create {entityType : String} {query : ShapedQuery} (hmethods : t.methods = [])
    (hmembers : t.members = []) (h : ShapedQuery.create t entityType = .ok query) :
    t.Plain query.select where
  methods := hmethods
  members := hmembers
  projects := by
    rw [ShapedQuery.create_mapping h]
    intro entry hentry
    cases List.mem_singleton.mp hentry
    exact nofun

/-- What a visit of an expression yields is well mapped. -/
theorem Plain.wellMapped_of_yields (h : t.Plain q) {e : HostExpr} {stripped : Bool} {s : Scalar}
    (he : ∀ node ∈ e.embedded, node.WellMapped)
    (hs : (t.visit q stripped e).Yields (.scalar s)) : s.WellMapped :=
  (visit_ensures h.sound h.wellMapped e he stripped).yields _ hs s rfl

theorem Plain.not_yields (h : t.Plain q) {e : HostExpr} (he : e.IsUntranslated) {s : Scalar} :
    ¬ (t.visit q false e).Yields (.scalar s) := by
  induction he with
  | staticMember =>
    rw [visit, h.members]
    intro hs
    cases Attempt.yields_node.mp hs
  | unary hop =>
    intro hs
    -- a unary operator that yields something is a conversion or one of the few with a translation
    rcases visit_unary_yields hs with ⟨rfl, _⟩ | ⟨x, _, hx⟩
    · rcases hop with hop | hop | hop <;> cases hop
    · rcases hop with rfl | rfl | rfl <;> cases hx
  | newArray | listInit | lambda | invoke =>
    rw [visit]
    intro hs
    cases Attempt.yields_ofOption.mp hs
  | projected =>
    rw [visit]
    intro hs
    unfold Select.mapped at hs
    split at hs
    · -- a projection of the query would have to map its path to a scalar
      rename_i node hnode
      cases hs
      exact h.projects _ (Table.mem_of_get? hnode) s rfl
    · cases hs
  | shaper _ ih =>
    rw [visit]
    exact ih

theorem bindOn_scalar {source : HostExpr} {name : String} {s : Scalar}
    (h : (t.bindOn q source name).Yields (.scalar s)) : ∃ f, s = .field f := by
  obtain ⟨part, _, h⟩ := Attempt.yields_bind.mp h
  obtain ⟨shape, rfl, h⟩ := bindMember_yields.mp h
  exact EntityShape.bindMember_scalar h

/-- **A scalar has the static type of its expression**, up to nullability. -/
theorem KeepsType.type_eq (h : t.Plain q) {e : HostExpr} (he : t.KeepsType q e) :
    (∀ node ∈ e.embedded, node.WellMapped) → ∀ {s : Scalar},
      (t.visit q false e).Yields (.scalar s) → s.type.unwrap = e.type.unwrap := by
  -- embedded nodes stay in the statement, because an operand has only some of them
  induction he with
  | constant | parameter =>
    intro _ s hs
    rw [visit] at hs
    cases Attempt.yields_pure.mp hs
    rfl
  | construct | memberInit =>
    intro _ s hs
    rw [visit] at hs
    obtain ⟨value, _, rfl⟩ := Option.map_eq_some_iff.mp (Attempt.yields_node.mp hs)
    rfl
  | query =>
    intro _ s hs
    rw [visit] at hs
    cases Attempt.yields_pure.mp hs
    rfl
  | @member source name type hbound =>
    intro _ s hs
    have hfield := hs
    rw [visit_member, Attempt.yields_orElse, h.members] at hfield
    rcases hfield with hfield | ⟨_, hrule⟩
    · obtain ⟨f, rfl⟩ := bindOn_scalar hfield
      rw [Scalar.type, hbound f hs, HostExpr.type]
    · obtain ⟨_, _, hrule⟩ := Attempt.yields_bind.mp hrule
      cases Attempt.yields_node.mp hrule
  | property hp hbound =>
    intro _ s hs
    have hfield := hs
    rw [visit_property hp] at hfield
    obtain ⟨f, rfl⟩ := bindOn_scalar hfield
    rw [Scalar.type, hbound f hs]
  | call haccess hreturn =>
    intro _ s hs
    rw [visit, if_neg haccess, h.methods] at hs
    obtain ⟨x, _, hs⟩ := Attempt.yields_bind.mp hs
    obtain ⟨xs, _, hs⟩ := Attempt.yields_bind.mp hs
    rw [MethodRule.type_of_builtIn (Attempt.yields_node.mp hs), HostExpr.type, hreturn]
    rfl
  | staticCall haccess hreturn =>
    intro _ s hs
    rw [visit, if_neg haccess, h.methods] at hs
    obtain ⟨xs, _, hs⟩ := Attempt.yields_bind.mp hs
    rw [MethodRule.type_of_builtIn (Attempt.yields_node.mp hs), HostExpr.type, hreturn]
    rfl
  | @predicate op left right type hop htype =>
    intro _ s hs
    have hcoalesce : op ≠ .coalesce := by
      rintro rfl
      cases hop
    rw [visit, if_neg hcoalesce] at hs
    obtain ⟨l, _, hs⟩ := Attempt.yields_bind.mp hs
    obtain ⟨r, _, hs⟩ := Attempt.yields_bind.mp hs
    rw [Scalar.type_combine_of_isPredicate hop (Attempt.yields_node.mp hs), HostExpr.type, htype]
    rfl
  | @coalesce left right type _ htype ih =>
    intro hembedded s hs
    have hleft := (List.forall_mem_append.mp hembedded).1
    rw [visit, if_pos rfl] at hs
    obtain ⟨_, _, hs⟩ := Attempt.yields_bind.mp hs
    obtain ⟨_, _, hs⟩ := Attempt.yields_bind.mp hs
    obtain ⟨a, ha, hs⟩ := Attempt.yields_bind.mp hs
    obtain ⟨_, _, hs⟩ := Attempt.yields_bind.mp hs
    have ha := Attempt.yields_scalar.mp ha
    rw [Scalar.type_choose (h.wellMapped_of_yields hleft ha) (Attempt.yields_node.mp hs),
      ih hleft ha, HostExpr.type, htype]
  | @arithmetic op left right type hop hcoalesce _ htype ih =>
    intro hembedded s hs
    have hleft := (List.forall_mem_append.mp hembedded).1
    rw [visit, if_neg hcoalesce] at hs
    obtain ⟨l, hl, hs⟩ := Attempt.yields_bind.mp hs
    obtain ⟨_, _, hs⟩ := Attempt.yields_bind.mp hs
    have hl := Attempt.yields_scalar.mp hl
    have hwell := h.wellMapped_of_yields hleft hl
    -- the scalar is that of the operand without its conversions
    rw [visit_stripped] at hl
    rw [← HostExpr.embedded_stripped] at hleft
    rw [Scalar.type_combine hop hwell (Attempt.yields_node.mp hs), ih hleft hl, HostExpr.type,
      htype]
  | not htype =>
    intro _ s hs
    rcases visit_unary_yields hs with ⟨hop, _⟩ | ⟨x, _, hx⟩
    · cases hop
    · rw [Scalar.type_not hx, HostExpr.type, htype]
      rfl
  | @negate operand type _ htype ih =>
    intro hembedded s hs
    have hoperand : ∀ node ∈ operand.embedded, node.WellMapped := hembedded
    rcases visit_unary_yields hs with ⟨hop, _⟩ | ⟨x, hx, hnegate⟩
    · cases hop
    · rw [Scalar.type_negate (h.wellMapped_of_yields hoperand hx) hnegate, ih hoperand hx,
        HostExpr.type, htype]
  | @convert operand type hinterface henum hunwrap =>
    intro _ s hs
    obtain ⟨x, _, hconvert⟩ := visit_convert_yields hs
    rcases convert_eq_some hconvert with ⟨rfl, hdropped⟩ | ⟨hobject, hboxed⟩
    · have hsame : type.unwrap = s.type :=
        (hdropped.resolve_left hinterface).resolve_right henum
      rw [← hsame, hunwrap, HostExpr.type]
    · rw [type_of_convert_object hboxed, HostExpr.type, hobject]
  | @identity operand type _ htype ih =>
    intro hembedded s hs
    obtain ⟨x, hx, hconvert⟩ := visit_convert_yields hs
    rcases convert_eq_some hconvert with ⟨rfl, _⟩ | ⟨hobject, hboxed⟩
    · rw [ih hembedded hx, HostExpr.type, htype]
    · rw [type_of_convert_object hboxed, HostExpr.type, hobject]
  | @conditional test ifTrue ifFalse type _ htype ih =>
    intro hembedded s hs
    have hifTrue := (List.forall_mem_append.mp (List.forall_mem_append.mp hembedded).1).2
    rw [visit] at hs
    obtain ⟨_, _, hs⟩ := Attempt.yields_bind.mp hs
    obtain ⟨a, ha, hs⟩ := Attempt.yields_bind.mp hs
    obtain ⟨_, _, hs⟩ := Attempt.yields_bind.mp hs
    have ha := Attempt.yields_scalar.mp ha
    rw [Scalar.type_choose (h.wellMapped_of_yields hifTrue ha) (Attempt.yields_node.mp hs),
      ih hifTrue ha, HostExpr.type, htype]
  | untranslated he =>
    intro _ s hs
    exact absurd hs (h.not_yields he)

end Translator

end Odm
