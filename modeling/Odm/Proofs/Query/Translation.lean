import Odm.Proofs.Query.Meaning
import Odm.Proofs.Success
import Odm.Query.ShapedQuery

/-!
# Translation keeps the meaning

A host expression has a meaning of its own, read off its tree: a chain of members on the entity
of the query is the field it is bound to, a conversion is its operand, `l ?? r` is
`l != null ? l : r`, and every other operator stands for itself. `Denotes` says so without the
translator. What is left of an expression after translation computes just that.

The translator drops conversions in one place, reads them as a wish for a type in another,
visits the left operand of a coalescing twice and lets mapping inference rebuild every node. So
the induction is on the host expression and speaks of both ways to visit it, and the two visits
of one operand agree because each of them agrees with the meaning.

Rules for members that no document stores may be plugged into a translator. They are asked only
where a chain is bound to nothing, so an expression that has a meaning never gets to them.
-/

namespace Odm

/-! ## What attempts yield -/

namespace Attempt

variable {α β : Type}

/-- The attempt succeeds, with that result. -/
def Yields (x : Attempt α) (a : α) : Prop := x.run = .ok (some a)

theorem Yields.unique {x : Attempt α} {a b : α} (ha : x.Yields a) (hb : x.Yields b) : a = b := by
  have h := Eq.trans (Eq.symm ha) hb
  simpa using h

theorem yields_pure {a b : α} : Yields (pure a) b ↔ a = b := by
  simp [Yields, pure, OptionT.pure, OptionT.run, OptionT.mk, Except.pure]

theorem yields_ofOption {o : Option α} {a : α} : Yields (ofOption o) a ↔ o = some a := by
  simp [Yields, ofOption, OptionT.run, OptionT.mk]

theorem yields_bind {x : Attempt α} {f : α → Attempt β} {b : β} :
    Yields (x >>= f) b ↔ ∃ a, x.Yields a ∧ (f a).Yields b := by
  unfold Yields
  rw [OptionT.run_bind]
  cases hx : x.run with
  | error e => simp [Option.elimM, Bind.bind, Except.bind]
  | ok o => cases o <;> simp [Option.elimM, Bind.bind, Except.bind, Pure.pure, Except.pure]

theorem yields_orElse {x y : Attempt α} {a : α} :
    Yields (x <|> y) a ↔ x.Yields a ∨ (x.run = .ok none ∧ y.Yields a) := by
  unfold Yields
  rw [OptionT.run_orElse]
  cases hx : x.run with
  | error e => simp [Option.elimM, Bind.bind, Except.bind]
  | ok o => cases o <;> simp [Option.elimM, Bind.bind, Except.bind, Pure.pure, Except.pure]

theorem yields_scalar {part : Attempt Node} {s : Scalar} :
    Yields (scalar part) s ↔ part.Yields (.scalar s) := by
  unfold scalar
  rw [yields_bind]
  constructor
  · rintro ⟨node, hnode, h⟩
    rw [yields_ofOption] at h
    cases node with
    | scalar x => cases h; exact hnode
    | entity shape => cases h
    | array shape => cases h
  · intro h
    exact ⟨.scalar s, h, yields_ofOption.mpr rfl⟩

theorem yields_node {o : Option Scalar} {s : Scalar} :
    Yields (node o) (.scalar s) ↔ o = some s := by
  simp [node, yields_ofOption]

end Attempt

/-! ## What host expressions denote -/

namespace HostExpr

/-- Chains of members on an entity, each accessed as a member or as a property by its name.
Conversions may stand anywhere in a chain. -/
inductive MemberChain (shaper : HostExpr) : HostExpr → Prop where
  | shaper : MemberChain shaper shaper
  | conversion {op : HostUnaryOp} {source : HostExpr} {type : HostType} :
    op.isConversion → MemberChain shaper source → MemberChain shaper (.unary op source type)
  | member {source : HostExpr} {name : String} {type : HostType} :
    MemberChain shaper source → MemberChain shaper (.member source name type)
  | property {access source : HostExpr} {name : String} :
    access.propertyArguments? = some (source, name) → MemberChain shaper source →
    MemberChain shaper access

/-- The expressions that are built from values, from chains of members on an entity and from
operators that document stores have. -/
inductive Operation (shaper : HostExpr) : HostExpr → Prop where
  | constant {value : Value} {type : HostType} : Operation shaper (.constant value type)
  | parameter {name : String} {type : HostType} : Operation shaper (.parameter name type)
  | shaper : Operation shaper shaper
  | member {source : HostExpr} {name : String} {type : HostType} :
    MemberChain shaper source → Operation shaper (.member source name type)
  | property {access source : HostExpr} {name : String} :
    access.propertyArguments? = some (source, name) → MemberChain shaper source →
    Operation shaper access
  | binary {op : BinaryOp} {left right : HostExpr} {type : HostType} :
    Operation shaper left → Operation shaper right →
    Operation shaper (.binary op left right type)
  | not {operand : HostExpr} {type : HostType} :
    Operation shaper operand → Operation shaper (.unary .not operand type)
  | negate {operand : HostExpr} {type : HostType} :
    Operation shaper operand → Operation shaper (.unary .negate operand type)
  | convert {operand : HostExpr} {type : HostType} :
    Operation shaper operand → Operation shaper (.unary .convert operand type)
  | conditional {test ifTrue ifFalse : HostExpr} {type : HostType} :
    Operation shaper test → Operation shaper ifTrue → Operation shaper ifFalse →
    Operation shaper (.conditional test ifTrue ifFalse type)

/-- What a chain of members leads to, when `shaper` stands for the entity `root`. Each member is
looked up on what its source leads to, as the type that conversions around the source ask for. -/
inductive BindsTo (s : Schema) (shaper : HostExpr) (root : EntityShape) :
    HostExpr → Node → Prop where
  | shaper : BindsTo s shaper root shaper (.entity root)
  | conversion {op : HostUnaryOp} {source : HostExpr} {type : HostType} {node : Node} :
    op.isConversion → BindsTo s shaper root source node →
    BindsTo s shaper root (.unary op source type) node
  | member {source : HostExpr} {name : String} {type : HostType} {shape : EntityShape}
      {node : Node} :
    BindsTo s shaper root source (.entity shape) →
    shape.bindMember s name (some (source.convertedType?.getD shape.type)) false
      = .ok (some node) →
    BindsTo s shaper root (.member source name type) node
  | property {access source : HostExpr} {name : String} {shape : EntityShape} {node : Node} :
    access.propertyArguments? = some (source, name) →
    BindsTo s shaper root source (.entity shape) →
    shape.bindMember s name (some (source.convertedType?.getD shape.type)) false
      = .ok (some node) →
    BindsTo s shaper root access node

/-- The value of a host expression, under an interpretation of parameters, fields and operators
and with `shaper` standing for the entity `root`. -/
inductive Denotes {α : Type} (I : Interpretation α) (s : Schema) (shaper : HostExpr)
    (root : EntityShape) : HostExpr → α → Prop where
  | constant {value : Value} {type : HostType} :
    Denotes I s shaper root (.constant value type) (I.literal value)
  | parameter {name : String} {type : HostType} :
    Denotes I s shaper root (.parameter name type) (I.parameter name)
  | field {e : HostExpr} {f : Field} :
    BindsTo s shaper root e (.scalar (.field f)) → Denotes I s shaper root e (I.field f.path)
  | binary {op : BinaryOp} {left right : HostExpr} {type : HostType} {a b : α} :
    op ≠ .coalesce → Denotes I s shaper root left a → Denotes I s shaper root right b →
    Denotes I s shaper root (.binary op left right type) (I.binary op a b)
  | coalesce {left right : HostExpr} {type : HostType} {a b : α} :
    Denotes I s shaper root left a → Denotes I s shaper root right b →
    Denotes I s shaper root (.binary .coalesce left right type)
      (I.conditional (I.binary .notEqual a (I.literal .null)) a b)
  | not {operand : HostExpr} {type : HostType} {a : α} :
    Denotes I s shaper root operand a →
    Denotes I s shaper root (.unary .not operand type) (I.not a)
  | negate {operand : HostExpr} {type : HostType} {a : α} :
    Denotes I s shaper root operand a →
    Denotes I s shaper root (.unary .negate operand type) (I.negate a)
  | convert {operand : HostExpr} {type : HostType} {a : α} :
    Denotes I s shaper root operand a →
    Denotes I s shaper root (.unary .convert operand type) a
  | conditional {test ifTrue ifFalse : HostExpr} {type : HostType} {c a b : α} :
    Denotes I s shaper root test c → Denotes I s shaper root ifTrue a →
    Denotes I s shaper root ifFalse b →
    Denotes I s shaper root (.conditional test ifTrue ifFalse type) (I.conditional c a b)

end HostExpr

/-! ## Chains of members -/

theorem HostExpr.propertyArguments?_eq_some {access source : HostExpr} {name : String}
    (h : access.propertyArguments? = some (source, name)) :
    ∃ method type, method.isPropertyAccessor = true
      ∧ ((∃ object, access = .call object method [source, .constant (.str name) type])
        ∨ access = .staticCall method [source, .constant (.str name) type]) := by
  unfold HostExpr.propertyArguments? at h
  split at h
  · split at h
    · rename_i object method source' name' type hm
      cases h
      exact ⟨method, type, hm, .inl ⟨object, rfl⟩⟩
    · cases h
  · split at h
    · rename_i method source' name' type hm
      cases h
      exact ⟨method, type, hm, .inr rfl⟩
    · cases h
  · cases h

namespace Translator

variable {t : Translator} {q : Select} {shaper : HostExpr} {root : EntityShape}

/-- The shaper is where chains of members begin. -/
structure StartsAt (t : Translator) (q : Select) (shaper : HostExpr) (root : EntityShape) :
    Prop where
  isShaper : ∃ entityType buffer, shaper = .shaper entityType buffer
  source : ∀ node, (t.visitSource q shaper).Yields node ↔ node = .entity root
  visit : ∀ stripped node, (t.visit q stripped shaper).Yields node ↔ node = .entity root

theorem bindMember_yields {part node : Node} {requested : Option HostType} {name : String} :
    (t.bindMember part requested name).Yields node ↔ ∃ shape, part = .entity shape
      ∧ shape.bindMember t.schema name (some (requested.getD shape.type)) false
        = .ok (some node) := by
  cases part with
  | scalar s => simp [bindMember, Attempt.yields_ofOption]
  | entity shape => simp [bindMember, Attempt.Yields, OptionT.run, OptionT.mk]
  | array shape => simp [bindMember, Attempt.yields_ofOption]

/-- Looking a member up on the source of a chain. -/
def bindOn (t : Translator) (q : Select) (source : HostExpr) (name : String) : Attempt Node := do
  t.bindMember (← t.visitSource q source) source.convertedType? name

theorem visit_property {access source : HostExpr} {name : String}
    (h : access.propertyArguments? = some (source, name)) (stripped : Bool) :
    t.visit q stripped access = t.bindOn q source name := by
  obtain ⟨method, type, hm, ⟨object, rfl⟩ | rfl⟩ := HostExpr.propertyArguments?_eq_some h
  · simp [visit, visitAccess, HostExpr.isAccess, hm, bindOn]
  · simp [visit, visitAccess, HostExpr.isAccess, hm, bindOn]

theorem visitSource_property {access source : HostExpr} {name : String}
    (h : access.propertyArguments? = some (source, name)) :
    t.visitSource q access = t.bindOn q source name := by
  obtain ⟨method, type, hm, ⟨object, rfl⟩ | rfl⟩ := HostExpr.propertyArguments?_eq_some h
  · simp [visitSource, visitAccess, HostExpr.isAccess, hm, bindOn]
  · simp [visitSource, visitAccess, HostExpr.isAccess, hm, bindOn]

/-- **What the source of a member is visited to is what the chain leads to.** -/
theorem visitSource_yields (hs : t.StartsAt q shaper root) {e : HostExpr}
    (he : HostExpr.MemberChain shaper e) : ∀ node,
    (t.visitSource q e).Yields node ↔ HostExpr.BindsTo t.schema shaper root e node := by
  obtain ⟨entityType, buffer, hshaper⟩ := hs.isShaper
  -- The induction needs the shaper as a variable. Only the cases replace it, to tell the rules
  -- of `BindsTo` apart.
  induction he with
  | shaper =>
      intro node
      rw [hs.source]
      constructor
      · rintro rfl
        exact .shaper
      · intro h
        subst hshaper
        cases h with
        | shaper => rfl
        | property hp _ _ => cases hp
  | conversion hop _ ih =>
      intro node
      rw [visitSource, if_pos hop, ih]
      constructor
      · exact .conversion hop
      · intro h
        subst hshaper
        cases h with
        | conversion _ h => exact h
        | property hp _ _ => cases hp
  | member _ ih =>
      intro node
      rw [visitSource, Attempt.yields_bind]
      constructor
      · rintro ⟨part, hpart, h⟩
        obtain ⟨shape, rfl, h⟩ := bindMember_yields.mp h
        exact .member ((ih _).mp hpart) h
      · intro h
        subst hshaper
        cases h with
        | member hsource h => exact ⟨_, (ih _).mpr hsource, bindMember_yields.mpr ⟨_, rfl, h⟩⟩
        | property hp _ _ => cases hp
  | property hp _ ih =>
      intro node
      rw [visitSource_property hp, bindOn, Attempt.yields_bind]
      constructor
      · rintro ⟨part, hpart, h⟩
        obtain ⟨shape, rfl, h⟩ := bindMember_yields.mp h
        exact .property hp ((ih _).mp hpart) h
      · intro h
        subst hshaper
        cases h with
        | shaper => cases hp
        | conversion _ _ => cases hp
        | member _ _ => cases hp
        | property hp' hsource h =>
          cases hp.symm.trans hp'
          exact ⟨_, (ih _).mpr hsource, bindMember_yields.mpr ⟨_, rfl, h⟩⟩

theorem bindOn_yields (hs : t.StartsAt q shaper root) {source : HostExpr} {name : String}
    (hsource : HostExpr.MemberChain shaper source) {node : Node} :
    (t.bindOn q source name).Yields node ↔ ∃ shape,
      HostExpr.BindsTo t.schema shaper root source (.entity shape)
        ∧ shape.bindMember t.schema name (some (source.convertedType?.getD shape.type)) false
          = .ok (some node) := by
  rw [bindOn, Attempt.yields_bind]
  constructor
  · rintro ⟨part, hpart, h⟩
    obtain ⟨shape, rfl, h⟩ := bindMember_yields.mp h
    exact ⟨shape, (visitSource_yields hs hsource _).mp hpart, h⟩
  · rintro ⟨shape, hshape, h⟩
    exact ⟨_, (visitSource_yields hs hsource _).mpr hshape, bindMember_yields.mpr ⟨_, rfl, h⟩⟩

end Translator

theorem EntityShape.bindNavigation_ne_scalar {s : Schema} {shape : EntityShape} {n : Navigation}
    {x : Scalar} : shape.bindNavigation s n ≠ .ok (.scalar x) := by
  intro h
  unfold bindNavigation at h
  obtain ⟨_, _, h⟩ := Except.bind_eq_ok_iff.mp h
  split at h
  · obtain ⟨_, _, h⟩ := Except.bind_eq_ok_iff.mp h
    cases Except.pure_eq_ok_iff.mp h
  · obtain ⟨_, _, h⟩ := Except.bind_eq_ok_iff.mp h
    cases Except.pure_eq_ok_iff.mp h

/-- A member that is a scalar is a field of the document. -/
theorem EntityShape.bindMember_scalar {s : Schema} {shape : EntityShape} {name : String}
    {requested : Option HostType} {onClient : Bool} {x : Scalar}
    (h : shape.bindMember s name requested onClient = .ok (some (.scalar x))) :
    ∃ f, x = .field f := by
  unfold bindMember at h
  obtain ⟨typeName, _, h⟩ := Except.bind_eq_ok_iff.mp h
  split at h
  · obtain ⟨f, _, h⟩ := Except.bind_eq_ok_iff.mp h
    obtain ⟨f, _, h⟩ := Option.map_eq_some_iff.mp (Except.pure_eq_ok_iff.mp h)
    cases h
    exact ⟨f, rfl⟩
  · split at h
    · obtain ⟨node, hnode, h⟩ := Except.bind_eq_ok_iff.mp h
      cases Except.pure_eq_ok_iff.mp h
      exact absurd hnode bindNavigation_ne_scalar
    · cases Except.pure_eq_ok_iff.mp h

/-! ## Operators -/

namespace Translator

variable {α : Type} {I : Interpretation α} {t : Translator} {q : Select} {shaper : HostExpr}
  {root : EntityShape}

/-- A value is what an expression denotes: nothing else, and the value itself unless rules for
members that no document stores have their say. -/
structure Means (I : Interpretation α) (t : Translator) (shaper : HostExpr) (root : EntityShape)
    (e : HostExpr) (v : α) : Prop where
  unique : ∀ w, HostExpr.Denotes I t.schema shaper root e w → w = v
  denoted : t.members = [] → HostExpr.Denotes I t.schema shaper root e v

theorem visit_member (stripped : Bool) (source : HostExpr) (name : String) (type : HostType) :
    t.visit q stripped (.member source name type) = (t.bindOn q source name <|> do
      let object ← Attempt.scalar (t.visit q false source)
      Attempt.node (MemberRule.firstOf t.members (some object) name type)) := by
  simp only [visit, bindOn]

/-- A member on a chain denotes the field it is bound to and nothing else. -/
theorem denotes_member (hs : t.StartsAt q shaper root) {source : HostExpr} {name : String}
    {type : HostType} (hsource : HostExpr.MemberChain shaper source) {w : α} :
    HostExpr.Denotes I t.schema shaper root (.member source name type) w ↔ ∃ f : Field,
      (t.bindOn q source name).Yields (.scalar (.field f)) ∧ w = I.field f.path := by
  obtain ⟨entityType, buffer, rfl⟩ := hs.isShaper
  constructor
  · intro h
    cases h with
    | @field _ f h =>
        cases h with
        | member hshape h => exact ⟨f, (bindOn_yields hs hsource).mpr ⟨_, hshape, h⟩, rfl⟩
        | property hp _ _ => cases hp
  · rintro ⟨f, h, rfl⟩
    obtain ⟨shape, hshape, h⟩ := (bindOn_yields hs hsource).mp h
    exact .field (.member hshape h)

theorem denotes_property (hs : t.StartsAt q shaper root) {access source : HostExpr}
    {name : String} (hp : access.propertyArguments? = some (source, name))
    (hsource : HostExpr.MemberChain shaper source) {w : α} :
    HostExpr.Denotes I t.schema shaper root access w ↔ ∃ f : Field,
      (t.bindOn q source name).Yields (.scalar (.field f)) ∧ w = I.field f.path := by
  obtain ⟨entityType, buffer, rfl⟩ := hs.isShaper
  constructor
  · -- an access is no conversion and no member, so it was read as a property
    intro h
    cases h with
    | @field _ f h =>
        cases h with
        | conversion _ _ => cases hp
        | member _ _ => cases hp
        | property hp' hshape h =>
            cases hp.symm.trans hp'
            exact ⟨f, (bindOn_yields hs hsource).mpr ⟨_, hshape, h⟩, rfl⟩
    | _ => cases hp
  · -- the source of the access is bound to a shape, as it is when the access is read
    rintro ⟨f, h, rfl⟩
    obtain ⟨shape, hshape, h⟩ := (bindOn_yields hs hsource).mp h
    exact .field (.property hp hshape h)

theorem means_of_bindOn (hs : t.StartsAt q shaper root) {e source : HostExpr} {name : String}
    (hsource : HostExpr.MemberChain shaper source)
    (he : ∀ w, HostExpr.Denotes I t.schema shaper root e w ↔ ∃ f : Field,
      (t.bindOn q source name).Yields (.scalar (.field f)) ∧ w = I.field f.path)
    {s : Scalar} (h : (t.bindOn q source name).Yields (.scalar s)) :
    Means I t shaper root e (s.eval I) := by
  obtain ⟨shape, _, hbind⟩ := (bindOn_yields hs hsource).mp h
  obtain ⟨f, rfl⟩ := EntityShape.bindMember_scalar hbind
  refine ⟨?_, fun _ => (he _).mpr ⟨f, h, rfl⟩⟩
  intro w hw
  obtain ⟨f', hf', rfl⟩ := (he w).mp hw
  cases hf'.unique h
  rfl

theorem means_member (hs : t.StartsAt q shaper root) {source : HostExpr} {name : String}
    {type : HostType} (hsource : HostExpr.MemberChain shaper source) {stripped : Bool}
    {s : Scalar} (h : (t.visit q stripped (.member source name type)).Yields (.scalar s)) :
    Means I t shaper root (.member source name type) (s.eval I) := by
  rw [visit_member, Attempt.yields_orElse] at h
  rcases h with h | ⟨hnone, h⟩
  · exact means_of_bindOn hs hsource (fun _ => denotes_member hs hsource) h
  · -- The chain is bound to nothing, and the result is that of a rule.
    refine ⟨?_, ?_⟩
    · intro w hw
      obtain ⟨f, hf, _⟩ := (denotes_member hs hsource).mp hw
      rw [Attempt.Yields, hnone] at hf
      cases hf
    · intro hmembers
      obtain ⟨object, _, h⟩ := Attempt.yields_bind.mp h
      rw [Attempt.yields_node, hmembers] at h
      cases h

theorem means_property (hs : t.StartsAt q shaper root) {access source : HostExpr}
    {name : String} (hp : access.propertyArguments? = some (source, name))
    (hsource : HostExpr.MemberChain shaper source) {stripped : Bool} {s : Scalar}
    (h : (t.visit q stripped access).Yields (.scalar s)) :
    Means I t shaper root access (s.eval I) := by
  rw [visit_property hp] at h
  exact means_of_bindOn hs hsource (fun _ => denotes_property hs hp hsource) h

theorem means_constant (hs : t.StartsAt q shaper root) {value : Value} {type : HostType} :
    Means I t shaper root (.constant value type) (I.literal value) := by
  obtain ⟨entityType, buffer, rfl⟩ := hs.isShaper
  refine ⟨?_, fun _ => .constant⟩
  intro w hw
  cases hw with
  | constant => rfl
  | field h => cases h with
    | property hp _ _ => cases hp

theorem means_parameter (hs : t.StartsAt q shaper root) {name : String} {type : HostType} :
    Means I t shaper root (.parameter name type) (I.parameter name) := by
  obtain ⟨entityType, buffer, rfl⟩ := hs.isShaper
  refine ⟨?_, fun _ => .parameter⟩
  intro w hw
  cases hw with
  | parameter => rfl
  | field h => cases h with
    | property hp _ _ => cases hp

theorem means_binary (hs : t.StartsAt q shaper root) {op : BinaryOp} {left right : HostExpr}
    {type : HostType} {a b : α} (hop : op ≠ .coalesce) (ha : Means I t shaper root left a)
    (hb : Means I t shaper root right b) :
    Means I t shaper root (.binary op left right type) (I.binary op a b) := by
  obtain ⟨entityType, buffer, rfl⟩ := hs.isShaper
  refine ⟨?_, fun hm => .binary hop (ha.denoted hm) (hb.denoted hm)⟩
  intro w hw
  cases hw with
  | field h => cases h with
    | property hp _ _ => cases hp
  | binary _ hl hr => rw [ha.unique _ hl, hb.unique _ hr]
  | coalesce _ _ => exact absurd rfl hop

/-- The left operand of a coalescing is visited twice, and both of its values are taken. -/
theorem means_coalesce (hs : t.StartsAt q shaper root) {left right : HostExpr}
    {type : HostType} {tested a b : α} (ht : Means I t shaper root left tested)
    (ha : Means I t shaper root left a) (hb : Means I t shaper root right b) :
    Means I t shaper root (.binary .coalesce left right type)
      (I.conditional (I.binary .notEqual tested (I.literal .null)) a b) := by
  obtain ⟨entityType, buffer, rfl⟩ := hs.isShaper
  refine ⟨?_, ?_⟩
  · intro w hw
    cases hw with
    | field h => cases h with
      | property hp _ _ => cases hp
    | binary hop _ _ => exact absurd rfl hop
    | coalesce hl hr => rw [← ht.unique _ hl, ← ha.unique _ hl, hb.unique _ hr]
  · intro hm
    rw [← ha.unique _ (ht.denoted hm)]
    exact .coalesce (ht.denoted hm) (hb.denoted hm)

theorem means_not (hs : t.StartsAt q shaper root) {operand : HostExpr} {type : HostType} {a : α}
    (ha : Means I t shaper root operand a) :
    Means I t shaper root (.unary .not operand type) (I.not a) := by
  obtain ⟨entityType, buffer, rfl⟩ := hs.isShaper
  refine ⟨?_, fun hm => .not (ha.denoted hm)⟩
  intro w hw
  cases hw with
  | field h => cases h with
    | conversion hop _ => cases hop
    | property hp _ _ => cases hp
  | not h => rw [ha.unique _ h]

theorem means_negate (hs : t.StartsAt q shaper root) {operand : HostExpr} {type : HostType}
    {a : α} (ha : Means I t shaper root operand a) :
    Means I t shaper root (.unary .negate operand type) (I.negate a) := by
  obtain ⟨entityType, buffer, rfl⟩ := hs.isShaper
  refine ⟨?_, fun hm => .negate (ha.denoted hm)⟩
  intro w hw
  cases hw with
  | field h => cases h with
    | conversion hop _ => cases hop
    | property hp _ _ => cases hp
  | negate h => rw [ha.unique _ h]

theorem means_convert (hs : t.StartsAt q shaper root) {operand : HostExpr} {type : HostType}
    {a : α} (ha : Means I t shaper root operand a) :
    Means I t shaper root (.unary .convert operand type) a := by
  obtain ⟨entityType, buffer, rfl⟩ := hs.isShaper
  refine ⟨?_, fun hm => .convert (ha.denoted hm)⟩
  intro w hw
  cases hw with
  | field h => cases h with
    | conversion _ h => exact ha.unique _ (.field h)
    | property hp _ _ => cases hp
  | convert h => exact ha.unique _ h

theorem means_conditional (hs : t.StartsAt q shaper root) {test ifTrue ifFalse : HostExpr}
    {type : HostType} {c a b : α} (hc : Means I t shaper root test c)
    (ha : Means I t shaper root ifTrue a) (hb : Means I t shaper root ifFalse b) :
    Means I t shaper root (.conditional test ifTrue ifFalse type) (I.conditional c a b) := by
  obtain ⟨entityType, buffer, rfl⟩ := hs.isShaper
  refine ⟨?_, fun hm => .conditional (hc.denoted hm) (ha.denoted hm) (hb.denoted hm)⟩
  intro w hw
  cases hw with
  | field h => cases h with
    | property hp _ _ => cases hp
  | conditional hc' ha' hb' => rw [hc.unique _ hc', ha.unique _ ha', hb.unique _ hb']

/-! ## Translation -/

theorem convert_eval {operand s : Scalar} {type : HostType}
    (h : convert operand type = some s) : s.eval I = operand.eval I := by
  unfold convert at h
  split at h
  · cases h; rfl
  · split at h
    · exact Scalar.convert_eval h
    · cases h

theorem visit_unary_yields {op : HostUnaryOp} {operand : HostExpr} {type : HostType}
    {stripped : Bool} {s : Scalar}
    (h : (t.visit q stripped (.unary op operand type)).Yields (.scalar s)) :
    (op = .convert ∧ (t.visit q true operand).Yields (.scalar s))
      ∨ ∃ x, (t.visit q false operand).Yields (.scalar x) ∧ applyUnary op type x = some s := by
  rw [visit] at h
  split at h
  · rename_i hc
    simp only [Bool.and_eq_true, decide_eq_true_eq] at hc
    exact .inl ⟨hc.1.2, h⟩
  · obtain ⟨x, hx, h⟩ := Attempt.yields_bind.mp h
    exact .inr ⟨x, Attempt.yields_scalar.mp hx, Attempt.yields_node.mp h⟩

/-- **What an operation is visited to computes what the operation denotes.** Whether or not the
compiler's own conversions around it are dropped makes no difference. -/
theorem visit_means (I : Interpretation α) (hs : t.StartsAt q shaper root) {e : HostExpr}
    (he : HostExpr.Operation shaper e) : ∀ (stripped : Bool) (s : Scalar),
    (t.visit q stripped e).Yields (.scalar s) → Means I t shaper root e (s.eval I) := by
  -- `stripped` stays general, because below a conversion it is not what it was above.
  induction he with
  | constant =>
      intro stripped s h
      rw [visit, Attempt.yields_pure] at h
      cases h
      exact means_constant hs
  | parameter =>
      intro stripped s h
      rw [visit, Attempt.yields_pure] at h
      cases h
      exact means_parameter hs
  | shaper =>
      intro stripped s h
      cases (hs.visit _ _).mp h
  | member hsource =>
      intro stripped s h
      exact means_member hs hsource h
  | property hp hsource =>
      intro stripped s h
      exact means_property hs hp hsource h
  | @binary op left right type _ _ ihl ihr =>
      intro stripped s h
      rw [visit] at h
      split at h
      · -- The left operand is visited twice, and the hypothesis for it is used for both.
        rename_i hop
        subst hop
        obtain ⟨tested, htested, h⟩ := Attempt.yields_bind.mp h
        obtain ⟨test, htest, h⟩ := Attempt.yields_bind.mp h
        obtain ⟨a, ha, h⟩ := Attempt.yields_bind.mp h
        obtain ⟨b, hb, h⟩ := Attempt.yields_bind.mp h
        rw [Scalar.choose_eval (Attempt.yields_node.mp h),
          (Scalar.combine_eval (I := I) (Attempt.yields_ofOption.mp htest)).2]
        exact means_coalesce hs (ihl _ _ (Attempt.yields_scalar.mp htested))
          (ihl _ _ (Attempt.yields_scalar.mp ha)) (ihr _ _ (Attempt.yields_scalar.mp hb))
      · rename_i hop
        obtain ⟨a, ha, h⟩ := Attempt.yields_bind.mp h
        obtain ⟨b, hb, h⟩ := Attempt.yields_bind.mp h
        rw [(Scalar.combine_eval (I := I) (Attempt.yields_node.mp h)).2]
        exact means_binary hs hop (ihl _ _ (Attempt.yields_scalar.mp ha))
          (ihr _ _ (Attempt.yields_scalar.mp hb))
  | not _ ih =>
      intro stripped s h
      rcases visit_unary_yields h with ⟨hop, _⟩ | ⟨x, hx, h⟩
      · cases hop
      · rw [Scalar.not_eval h]
        exact means_not hs (ih _ _ hx)
  | negate _ ih =>
      intro stripped s h
      rcases visit_unary_yields h with ⟨hop, _⟩ | ⟨x, hx, h⟩
      · cases hop
      · rw [Scalar.negate_eval h]
        exact means_negate hs (ih _ _ hx)
  | convert _ ih =>
      intro stripped s h
      -- Dropped or converted, the operand keeps its value.
      rcases visit_unary_yields h with ⟨_, h⟩ | ⟨x, hx, h⟩
      · exact means_convert hs (ih _ _ h)
      · rw [convert_eval h]
        exact means_convert hs (ih _ _ hx)
  | conditional _ _ _ ihc iha ihb =>
      intro stripped s h
      rw [visit] at h
      obtain ⟨c, hc, h⟩ := Attempt.yields_bind.mp h
      obtain ⟨a, ha, h⟩ := Attempt.yields_bind.mp h
      obtain ⟨b, hb, h⟩ := Attempt.yields_bind.mp h
      rw [Scalar.choose_eval (Attempt.yields_node.mp h)]
      exact means_conditional hs (ihc _ _ (Attempt.yields_scalar.mp hc))
        (iha _ _ (Attempt.yields_scalar.mp ha)) (ihb _ _ (Attempt.yields_scalar.mp hb))

/-- The value of a finished scalar is that of the part it was made from. -/
theorem translate_yields (I : Interpretation α) {e : HostExpr} {s : Scalar}
    (h : t.translate q e = .ok (some s)) :
    ∃ x, (t.visit q false e).Yields (.scalar x) ∧ s.eval I = x.eval I := by
  obtain ⟨o, ho, h⟩ := Except.bind_eq_ok_iff.mp h
  cases o with
  | none => cases Except.pure_eq_ok_iff.mp h
  | some x =>
    refine ⟨x, Attempt.yields_scalar.mp ho, ?_⟩
    simp only [finish] at h
    split at h
    · cases h
    · rename_i y hy
      split at h
      · cases h; exact Scalar.applyMapping_eval I x hy
      · cases h

end Translator

/-! ## New queries -/

/-- A new query reads the documents of its entity type and makes entities of them. -/
theorem ShapedQuery.create_eq_ok {t : Translator} {name : String} {query : ShapedQuery}
    (h : ShapedQuery.create t name = .ok query) : ∃ found collection,
    QueryError.ofSchema (t.schema.entityType name) = .ok found
      ∧ query = {
        select := {
          entityType := found.name
          collection := collection
          mapping := [(.root, .entity (.root found.name Select.rootAlias))] }
        shaper := .shaper found.name (.projected .root (.entity found.name)) } := by
  obtain ⟨found, hfound, h⟩ := Except.bind_eq_ok_iff.mp h
  obtain ⟨select, hselect, h⟩ := Except.bind_eq_ok_iff.mp h
  obtain ⟨collection, _, hselect⟩ := Except.bind_eq_ok_iff.mp hselect
  cases Except.pure_eq_ok_iff.mp h
  cases Except.pure_eq_ok_iff.mp hselect
  exact ⟨found, collection, hfound, rfl⟩

/-- A shaper for the root output path leads to what is mapped there. -/
theorem Translator.startsAt_of_mapped {t : Translator} {q : Select} {entityType : String}
    {type : HostType} {root : EntityShape} (h : q.mapped .root = .ok (.entity root)) :
    t.StartsAt q (.shaper entityType (.projected .root type)) root := by
  have hmapped : Attempt.Yields (OptionT.lift (q.mapped .root)) (.entity root) := by
    rw [h]
    rfl
  refine ⟨⟨_, _, rfl⟩, ?_, ?_⟩
  · intro node
    rw [visitSource, visit]
    exact ⟨fun h => h.unique hmapped, fun h => h ▸ hmapped⟩
  · intro stripped node
    rw [visit, visit]
    exact ⟨fun h => h.unique hmapped, fun h => h ▸ hmapped⟩

/-- A new query starts at the documents of its entity type. -/
theorem ShapedQuery.create_startsAt {t : Translator} {entityType : String} {query : ShapedQuery}
    (h : ShapedQuery.create t entityType = .ok query) :
    t.StartsAt query.select query.shaper
      (.root query.select.entityType Select.rootAlias) := by
  obtain ⟨found, collection, _, rfl⟩ := create_eq_ok h
  exact Translator.startsAt_of_mapped rfl

/-- **A translated operation computes what the operation denotes.** No interpretation tells them
apart, so no operand is lost, swapped or replaced. Only rules for members that no document
stores can give a result to an operation that denotes nothing. -/
theorem translate_denotes {α : Type} (I : Interpretation α) {t : Translator}
    {entityType : String} {query : ShapedQuery} {e : HostExpr} {s : Scalar}
    (hcreate : ShapedQuery.create t entityType = .ok query)
    (he : HostExpr.Operation query.shaper e)
    (h : t.translate query.select e = .ok (some s)) :
    (∀ v, HostExpr.Denotes I t.schema query.shaper
        (.root query.select.entityType Select.rootAlias) e v → v = s.eval I)
      ∧ (t.members = [] → HostExpr.Denotes I t.schema query.shaper
        (.root query.select.entityType Select.rootAlias) e (s.eval I)) := by
  obtain ⟨x, hx, heval⟩ := Translator.translate_yields I h
  have hm := Translator.visit_means I (ShapedQuery.create_startsAt hcreate) he false x hx
  rw [heval]
  exact ⟨hm.unique, hm.denoted⟩

/-! ## People and their homes -/

/-- A schema in which the documents of people embed their addresses. -/
def people : Schema where
  types := [
    { name := "Address"
      isOwned := true
      isComplex := true
      discriminatorValue := some "Address"
      ownership := some ⟨"Person", "Home", false⟩
      properties := [⟨"City", "Address", .string, none, false, false, none⟩] },
    { name := "Person"
      collection := some "Person"
      discriminatorValue := some "Person"
      key := some ["Id"]
      properties := [⟨"Id", "Person", .int32, some "_id", false, false, some .onAdd⟩,
        ⟨"Rank", "Person", .byte, none, false, false, none⟩]
      navigations := [⟨"Home", "Person", "Address", false, true⟩] }]
  discriminatorElement := "_t"

/-- The query of all people. -/
def allPeople : ShapedQuery where
  select :=
    { entityType := "Person"
      collection := "Person"
      mapping := [(.root, .entity (.root "Person" Select.rootAlias))] }
  shaper := .shaper "Person" (.projected .root (.entity "Person"))

/-- Whether someone of the first rank lives in the given city, which is nowhere unless known. -/
def firstInCity : HostExpr :=
  .operate .andAlso
    (.operate .equal
      (.operate .coalesce
        (.propertyOf (.member allPeople.shaper "Home" (.entity "Address")) "City" .string)
        (.constant (.str "nowhere") .string))
      (.parameter "city" .string))
    (.operate .equal
      (.convert (.member allPeople.shaper "Rank" .byte) .int32) (.constant (.int 1) .int32))

theorem translate_denotes_firstInCity : ∃ s,
    ShapedQuery.create { schema := people } "Person" = .ok allPeople
      ∧ HostExpr.Operation allPeople.shaper firstInCity
      ∧ Translator.translate { schema := people } allPeople.select firstInCity = .ok (some s)
      ∧ HostExpr.Denotes
        (.ofDocument [("city", .str "Rome")]
          [("Home", .obj [("City", .str "Rome")]), ("Rank", .int 1)])
        people allPeople.shaper (.root "Person" "c") firstInCity (.bool true) := by
  have hcreate : ShapedQuery.create { schema := people } "Person" = .ok allPeople := rfl
  have he : HostExpr.Operation allPeople.shaper firstInCity :=
    .binary
      (.binary (.binary (.property rfl (.member .shaper)) .constant) .parameter)
      (.binary (.convert (.member .shaper)) .constant)
  have h : Translator.translate { schema := people } allPeople.select firstInCity
      = .ok (some _) := rfl
  exact ⟨_, hcreate, he, h, (translate_denotes _ hcreate he h).2 rfl⟩

end Odm
