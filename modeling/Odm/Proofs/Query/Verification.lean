import Odm.Proofs.Query.Mapped
import Odm.Proofs.Schema.Valid
import Odm.Proofs.Table

/-!
# Verification never fails

Whatever the translator makes of an expression is well mapped, so inference gives it all its
mappings, and verification finds nothing. This is shown for everything that the translator visits
on its way: `Attempt.Ensures` says of an attempt what its result is like, and that the fault of
verification is not what it fails with.

Three things come from outside. Parts of a query may be embedded in the expression, and rules for
methods and members may be plugged in; both are taken to be well mapped themselves. The third is
the statement that the query reads from, and no operator puts anything there that is not.
-/

namespace Odm

/-! ## Faults other than a missing mapping -/

/-- The computation does not end with the fault that verification reports. -/
def NeverUnmapped {α : Type} (x : Except QueryError α) : Prop :=
  ∀ text, x ≠ .error (.unmapped text)

namespace NeverUnmapped

variable {α β : Type}

theorem ok (a : α) : NeverUnmapped (.ok a) := nofun

theorem bind {x : Except QueryError α} {f : α → Except QueryError β} (hx : NeverUnmapped x)
    (hf : ∀ a, NeverUnmapped (f a)) : NeverUnmapped (x >>= f) := by
  intro text h
  rcases Except.bind_eq_error_iff.mp h with h | ⟨a, _, h⟩
  · exact hx text h
  · exact hf a text h

theorem ofSchema (x : Except SchemaError α) : NeverUnmapped (QueryError.ofSchema x) := by
  intro text h
  cases x <;> cases h

end NeverUnmapped

theorem Schema.embeddedName_neverUnmapped (s : Schema) (n : Navigation) :
    NeverUnmapped (s.embeddedName n) := by
  refine .bind (.ofSchema _) fun target => ?_
  split <;> exact nofun

namespace EntityShape

variable {s : Schema} {shape : EntityShape}

theorem checkMember_neverUnmapped (declaringType member : String) :
    NeverUnmapped (shape.checkMember s declaringType member) := by
  unfold checkMember
  split <;> exact nofun

theorem bindNavigation_neverUnmapped (n : Navigation) :
    NeverUnmapped (shape.bindNavigation s n) := by
  refine .bind (checkMember_neverUnmapped _ _) fun _ => ?_
  split
  · refine .bind ?_ fun _ => .ok _
    exact .bind (s.embeddedName_neverUnmapped n) fun _ => .ok _
  · exact .bind (s.embeddedName_neverUnmapped n) fun _ => .ok _

theorem lookupType_neverUnmapped (requested : Option HostType) :
    NeverUnmapped (shape.lookupType s requested) := by
  unfold lookupType
  split
  · refine .bind (.ofSchema _) fun wanted => ?_
    split
    · exact .ok _
    · split <;> exact nofun
  · exact .ok _

theorem bindMember_neverUnmapped (name : String) (requested : Option HostType)
    (onClient : Bool) : NeverUnmapped (shape.bindMember s name requested onClient) := by
  refine .bind (lookupType_neverUnmapped requested) fun typeName => ?_
  split
  · refine .bind ?_ fun _ => .ok _
    exact .bind (checkMember_neverUnmapped _ _) fun _ => .ok _
  · split
    · exact .bind (bindNavigation_neverUnmapped _) fun _ => .ok _
    · exact .ok _

/-- A field that a member is bound to is that of a property, and it was delivered. -/
theorem property_of_bindMember {name : String} {requested : Option HostType} {onClient : Bool}
    {f : Field} (h : shape.bindMember s name requested onClient = .ok (some (.scalar (.field f)))) :
    ∃ typeName p, s.findProperty? typeName name = some p
      ∧ (Field.ofProperty p shape.access).delivered? onClient = some f := by
  obtain ⟨typeName, _, h⟩ := Except.bind_eq_ok_iff.mp h
  split at h
  · rename_i p hp
    obtain ⟨bound, hbound, h⟩ := Except.bind_eq_ok_iff.mp h
    obtain ⟨f, rfl, h⟩ := Option.map_eq_some_iff.mp (Except.pure_eq_ok_iff.mp h)
    cases h
    obtain ⟨_, _, hbound⟩ := Except.bind_eq_ok_iff.mp hbound
    exact ⟨typeName, p, hp, Except.pure_eq_ok_iff.mp hbound⟩
  · split at h
    · obtain ⟨node, hnode, h⟩ := Except.bind_eq_ok_iff.mp h
      cases Except.pure_eq_ok_iff.mp h
      exact absurd hnode bindNavigation_ne_scalar
    · cases Except.pure_eq_ok_iff.mp h

/-- **A field that a member is bound to has the mapping of its property**, in a valid schema. -/
theorem mapping_of_bindMember (hs : s.Valid) {name : String} {requested : Option HostType}
    {onClient : Bool} {f : Field}
    (h : shape.bindMember s name requested onClient = .ok (some (.scalar (.field f)))) :
    f.mapping = some ⟨f.property.type⟩ := by
  obtain ⟨typeName, p, hp, hf⟩ := property_of_bindMember h
  unfold Field.delivered? at hf
  split at hf
  · cases hf
  · cases hf
    obtain ⟨t, ht, hmem, _⟩ := Catalog.findProperty?_eq_some hp
    exact if_pos (hs.isMappable (Catalog.mem_types_of_mem_chain ht) hmem)

/-- **What the document has to deliver has a name.** -/
theorem name_of_bindMember {name : String} {requested : Option HostType} {f : Field}
    (h : shape.bindMember s name requested false = .ok (some (.scalar (.field f)))) :
    f.name ≠ "" := by
  obtain ⟨_, p, _, hf⟩ := property_of_bindMember h
  unfold Field.delivered? at hf
  split at hf
  · cases hf
  · rename_i hnamed
    cases hf
    simpa using hnamed

end EntityShape

/-! ## What attempts ensure -/

/-- A part of a query that is well mapped, if it is a scalar at all. -/
def Node.WellMapped (node : Node) : Prop := ∀ s, node = .scalar s → s.WellMapped

/-- A part of a query that has the property, if it is a scalar at all. -/
def Node.Holds (P : Scalar → Prop) (node : Node) : Prop := ∀ s, node = .scalar s → P s

theorem Node.holds_scalar {P : Scalar → Prop} {s : Scalar} (h : P s) :
    (Node.scalar s).Holds P := by
  intro x hx
  cases hx
  exact h

theorem Node.wellMapped_scalar {s : Scalar} (h : s.WellMapped) : (Node.scalar s).WellMapped :=
  Node.holds_scalar h

namespace Attempt

variable {α β : Type}

/-- A result is as said, and a failure is not that of verification. -/
structure Ensures (x : Attempt α) (post : α → Prop) : Prop where
  yields : ∀ a, x.Yields a → post a
  sound : NeverUnmapped x.run

theorem run_bind_eq_error {x : Attempt α} {f : α → Attempt β} {e : QueryError}
    (h : (x >>= f).run = .error e) :
    x.run = .error e ∨ ∃ a, x.Yields a ∧ (f a).run = .error e := by
  unfold Yields
  rw [OptionT.run_bind] at h
  cases hx : x.run with
  | error e' =>
    rw [hx] at h
    exact .inl (by simpa [Option.elimM, Bind.bind, Except.bind] using h)
  | ok o =>
    rw [hx] at h
    cases o with
    | none => cases h
    | some a => exact .inr ⟨a, rfl, h⟩

theorem ensures_pure {a : α} {post : α → Prop} (h : post a) : Ensures (pure a) post where
  yields b hb := by rw [← yields_pure.mp hb]; exact h
  sound := nofun

theorem ensures_ofOption {o : Option α} {post : α → Prop} (h : ∀ a, o = some a → post a) :
    Ensures (ofOption o) post where
  yields a ha := h a (yields_ofOption.mp ha)
  sound := nofun

theorem Ensures.bind {x : Attempt α} {f : α → Attempt β} {mid : α → Prop} {post : β → Prop}
    (hx : x.Ensures mid) (hf : ∀ a, mid a → (f a).Ensures post) : (x >>= f).Ensures post where
  yields b hb := by
    obtain ⟨a, ha, hb⟩ := yields_bind.mp hb
    exact (hf a (hx.yields a ha)).yields b hb
  sound text h := by
    rcases run_bind_eq_error h with h | ⟨a, ha, h⟩
    · exact hx.sound text h
    · exact (hf a (hx.yields a ha)).sound text h

theorem Ensures.orElse {x y : Attempt α} {post : α → Prop} (hx : x.Ensures post)
    (hy : y.Ensures post) : (x <|> y).Ensures post where
  yields a ha := by
    rcases yields_orElse.mp ha with ha | ⟨_, ha⟩
    · exact hx.yields a ha
    · exact hy.yields a ha
  sound text h := by
    rw [OptionT.run_orElse] at h
    cases hr : x.run with
    | error e => rw [hr] at h; exact hx.sound text (hr.trans h)
    | ok o =>
      rw [hr] at h
      cases o with
      | none => exact hy.sound text h
      | some a => cases h

theorem Ensures.scalar {P : Scalar → Prop} {x : Attempt Node} (hx : x.Ensures (Node.Holds P)) :
    Ensures (Attempt.scalar x) P :=
  hx.bind fun node hnode => ensures_ofOption fun s hs => by
    cases node with
    | scalar x => cases hs; exact hnode _ rfl
    | entity shape => cases hs
    | array shape => cases hs

theorem ensures_node {P : Scalar → Prop} {o : Option Scalar} (h : ∀ s, o = some s → P s) :
    Ensures (node o) (Node.Holds P) :=
  ensures_ofOption fun node hnode => by
    obtain ⟨s, hs, rfl⟩ := Option.map_eq_some_iff.mp hnode
    exact Node.holds_scalar (h s hs)

end Attempt

/-! ## What is embedded in expressions -/

namespace HostExpr

mutual

/-- The parts of a query that are embedded in an expression, from left to right. -/
def embedded : HostExpr → List Node
  | .constant _ _ | .parameter _ _ | .staticMember _ _ | .projected _ _ => []
  | .member source _ _ => embedded source
  | .call object _ arguments => embedded object ++ embeddedAll arguments
  | .staticCall _ arguments => embeddedAll arguments
  | .binary _ left right _ => embedded left ++ embedded right
  | .unary _ operand _ => embedded operand
  | .conditional test ifTrue ifFalse _ =>
    embedded test ++ embedded ifTrue ++ embedded ifFalse
  | .construct _ _ arguments => embeddedAll arguments
  | .memberInit _ _ arguments bindings =>
    embeddedAll arguments ++ embeddedBindings bindings
  | .newArray _ items => embeddedAll items
  | .listInit _ _ arguments items => embeddedAll arguments ++ embeddedAll items
  | .lambda _ body => embedded body
  | .invoke function arguments _ => embedded function ++ embeddedAll arguments
  | .shaper _ buffer => embedded buffer
  | .query node => [node]

/-- The parts of a query that are embedded in expressions. -/
def embeddedAll : List HostExpr → List Node
  | [] => []
  | e :: rest => embedded e ++ embeddedAll rest

/-- The parts of a query that are embedded in assignments. -/
def embeddedBindings : List (String × HostExpr) → List Node
  | [] => []
  | (_, e) :: rest => embedded e ++ embeddedBindings rest

end

end HostExpr

/-! ## Visits -/

/-- What a statement projects is well mapped. -/
def Select.WellMapped (q : Select) : Prop := ∀ entry ∈ q.mapping, entry.2.WellMapped

namespace Translator

/-- All rules of a translator are sound. -/
structure Sound (t : Translator) : Prop where
  methods : ∀ rule ∈ t.methods, rule.Sound
  members : ∀ rule ∈ t.members, rule.Sound

/-- A property of scalars that is handed on by building and by all rules, and that what the
statement projects has. -/
structure Keeps (P : Scalar → Prop) (t : Translator) (q : Select) : Prop where
  hereditary : Scalar.Hereditary P
  methods : ∀ rule ∈ t.methods, rule.Keeps P
  members : ∀ rule ∈ t.members, rule.Keeps P
  mapping : ∀ entry ∈ q.mapping, entry.2.Holds P

variable {P : Scalar → Prop} {t : Translator} {q : Select}

theorem Sound.keeps (ht : t.Sound) (hq : q.WellMapped) : Keeps Scalar.WellMapped t q :=
  ⟨Scalar.hereditary_wellMapped, ht.methods, ht.members, hq⟩

theorem bindMember_ensures (hfield : ∀ f, f.name ≠ "" → P (.field f)) (part : Node)
    (requested : Option HostType) (name : String) :
    (t.bindMember part requested name).Ensures (Node.Holds P) where
  yields node h := by
    obtain ⟨shape, rfl, h⟩ := bindMember_yields.mp h
    rintro x rfl
    obtain ⟨f, rfl⟩ := EntityShape.bindMember_scalar h
    exact hfield f (EntityShape.name_of_bindMember h)
  sound := by
    cases part with
    | entity shape => exact EntityShape.bindMember_neverUnmapped _ _ _
    | scalar s => exact nofun
    | array shape => exact nofun

theorem convert_keeps (hP : Scalar.Hereditary P) {operand s : Scalar} {type : HostType}
    (hx : P operand) (h : convert operand type = some s) : P s := by
  unfold convert at h
  split at h
  · cases h
    exact hx
  · split at h
    · exact hP.built (.convert h) (by simp [hx])
    · cases h

theorem applyUnary_keeps (hP : Scalar.Hereditary P) {op : HostUnaryOp} {operand s : Scalar}
    {type : HostType} (hx : P operand) (h : applyUnary op type operand = some s) : P s := by
  cases op with
  | not => exact hP.built (.not h) (by simp [hx])
  | negate => exact hP.built (.negate h) (by simp [hx])
  | convert => exact convert_keeps hP hx h
  | typeAs => cases h
  | arrayLength => cases h
  | quote => cases h

theorem choose_keeps (hP : Scalar.Hereditary P) {test ifTrue ifFalse : Scalar} (hc : P test)
    (ha : P ifTrue) (hb : P ifFalse) :
    (Attempt.node (Scalar.choose test ifTrue ifFalse)).Ensures (Node.Holds P) :=
  Attempt.ensures_node fun _ h => hP.built (.choose h) (by simp [hc, ha, hb])

theorem visitLiteral_keeps (hP : Scalar.Hereditary P) (e : HostExpr) :
    (visitLiteral e).Ensures (Node.Holds P) :=
  Attempt.ensures_node fun s h => by
    obtain ⟨value, _, rfl⟩ := Option.map_eq_some_iff.mp h
    exact hP.literal value e.type

theorem mapped_keeps (hq : ∀ entry ∈ q.mapping, entry.2.Holds P) (path : OutputPath) :
    Attempt.Ensures (OptionT.lift (q.mapped path)) (Node.Holds P) where
  yields node h := by
    unfold Select.mapped at h
    split at h
    · rename_i node' hget
      cases h
      exact hq _ (Table.mem_of_get? hget)
    · cases h
  sound text h := by
    unfold Select.mapped at h
    split at h <;> cases h

mutual

/-- **Whatever an expression is visited to has what is handed on.** -/
theorem visit_keeps (h : Keeps P t q) : (e : HostExpr) →
    (∀ node ∈ e.embedded, node.Holds P) → ∀ stripped,
    (t.visit q stripped e).Ensures (Node.Holds P)
  | .constant value type, _, _ => by
    rw [visit]
    exact Attempt.ensures_pure (Node.holds_scalar (h.hereditary.literal value type))
  | .parameter name type, _, _ => by
    rw [visit]
    exact Attempt.ensures_pure (Node.holds_scalar (h.hereditary.placeholder name type))
  | .member source name type, he, _ => by
    rw [visit]
    refine .orElse ?_ ?_
    · exact (visitSource_keeps h source he).bind fun part _ =>
        bindMember_ensures h.hereditary.field _ _ _
    · refine (visit_keeps h source he false).scalar.bind fun object hobject => ?_
      refine Attempt.ensures_node fun s hs => ?_
      exact MemberRule.firstOf_keeps h.members _ name type s (by simpa using hobject) hs
  | .staticMember name type, _, _ => by
    rw [visit]
    refine Attempt.ensures_node fun s hs => ?_
    exact MemberRule.firstOf_keeps h.members none name type s nofun hs
  | .call object method arguments, he, _ => by
    obtain ⟨hobject, harguments⟩ := List.forall_mem_append.mp he
    rw [visit]
    split
    · exact visitAccess_keeps h arguments harguments
    · refine (visit_keeps h object hobject false).scalar.bind fun x hx => ?_
      refine (visitAll_keeps h arguments harguments).bind fun xs hxs => ?_
      refine Attempt.ensures_node fun s hs => ?_
      exact MethodRule.withBuiltIn_keeps h.hereditary h.methods _ method xs s
        (by simpa using hx) hxs hs
  | .staticCall method arguments, he, _ => by
    rw [visit]
    split
    · exact visitAccess_keeps h arguments he
    · refine (visitAll_keeps h arguments he).bind fun xs hxs => ?_
      refine Attempt.ensures_node fun s hs => ?_
      exact MethodRule.withBuiltIn_keeps h.hereditary h.methods none method xs s nofun hxs hs
  | .binary op left right type, he, _ => by
    obtain ⟨hl, hr⟩ := List.forall_mem_append.mp he
    rw [visit]
    split
    · refine (visit_keeps h left hl true).scalar.bind fun tested htested => ?_
      -- the test that is written for the coalescing has a new node over what is kept
      have htest : ∀ s, tested.combine .notEqual (.literal .null left.type) = some s → P s := by
        intro s hs
        exact h.hereditary.built (.combine hs) (by simp [htested, h.hereditary.literal])
      refine (Attempt.ensures_ofOption htest).bind fun test htest => ?_
      refine (visit_keeps h left hl false).scalar.bind fun a ha => ?_
      refine (visit_keeps h right hr false).scalar.bind fun b hb => ?_
      exact choose_keeps h.hereditary htest ha hb
    · refine (visit_keeps h left hl true).scalar.bind fun a ha => ?_
      refine (visit_keeps h right hr true).scalar.bind fun b hb => ?_
      refine Attempt.ensures_node fun s hs => ?_
      exact h.hereditary.built (.combine hs) (by simp [ha, hb])
  | .unary op operand type, he, _ => by
    rw [visit]
    split
    · exact visit_keeps h operand he true
    · refine (visit_keeps h operand he false).scalar.bind fun x hx => ?_
      exact Attempt.ensures_node fun _ => applyUnary_keeps h.hereditary hx
  | .conditional test ifTrue ifFalse type, he, _ => by
    obtain ⟨htests, hb⟩ := List.forall_mem_append.mp he
    obtain ⟨hc, ha⟩ := List.forall_mem_append.mp htests
    rw [visit]
    refine (visit_keeps h test hc false).scalar.bind fun c hc => ?_
    refine (visit_keeps h ifTrue ha false).scalar.bind fun a ha => ?_
    refine (visit_keeps h ifFalse hb false).scalar.bind fun b hb => ?_
    exact choose_keeps h.hereditary hc ha hb
  | .construct type members arguments, _, _ => by
    rw [visit]
    exact visitLiteral_keeps h.hereditary _
  | .memberInit type members arguments bindings, _, _ => by
    rw [visit]
    exact visitLiteral_keeps h.hereditary _
  | .newArray _ _, _, _ | .listInit _ _ _ _, _, _ | .lambda _ _, _, _
  | .invoke _ _ _, _, _ => by
    rw [visit]
    exact Attempt.ensures_ofOption nofun
  | .shaper _ buffer, he, _ => by
    rw [visit]
    exact visit_keeps h buffer he false
  | .projected path _, _, _ => by
    rw [visit]
    exact mapped_keeps h.mapping path
  | .query node, he, _ => by
    rw [visit]
    exact Attempt.ensures_pure (he node (by simp [HostExpr.embedded]))

theorem visitAll_keeps (h : Keeps P t q) : (es : List HostExpr) →
    (∀ node ∈ HostExpr.embeddedAll es, node.Holds P) →
    (t.visitAll q es).Ensures fun xs => ∀ x ∈ xs, P x
  | [], _ => by
    rw [visitAll]
    exact Attempt.ensures_pure nofun
  | e :: rest, he => by
    obtain ⟨hfirst, hrest⟩ := List.forall_mem_append.mp he
    rw [visitAll]
    refine (visit_keeps h e hfirst false).scalar.bind fun x hx => ?_
    refine (visitAll_keeps h rest hrest).bind fun xs hxs => ?_
    exact Attempt.ensures_pure (List.forall_mem_cons.mpr ⟨hx, hxs⟩)

theorem visitSource_keeps (h : Keeps P t q) : (e : HostExpr) →
    (∀ node ∈ e.embedded, node.Holds P) → (t.visitSource q e).Ensures (Node.Holds P)
  | .shaper _ buffer, he => by
    rw [visitSource]
    exact visit_keeps h buffer he false
  | .member source name _, he => by
    rw [visitSource]
    exact (visitSource_keeps h source he).bind fun part _ =>
      bindMember_ensures h.hereditary.field _ _ _
  | .call object method arguments, he => by
    rw [visitSource]
    split
    · exact visitAccess_keeps h arguments (List.forall_mem_append.mp he).2
    · exact Attempt.ensures_ofOption nofun
  | .staticCall method arguments, he => by
    rw [visitSource]
    split
    · exact visitAccess_keeps h arguments he
    · exact Attempt.ensures_ofOption nofun
  | .unary op operand _, he => by
    rw [visitSource]
    split
    · exact visitSource_keeps h operand he
    · exact Attempt.ensures_ofOption nofun
  | .constant _ _, _ | .parameter _ _, _ | .staticMember _ _, _ | .binary _ _ _ _, _
  | .conditional _ _ _ _, _ | .construct _ _ _, _ | .memberInit _ _ _ _, _
  | .newArray _ _, _ | .listInit _ _ _ _, _ | .lambda _ _, _ | .invoke _ _ _, _
  | .projected _ _, _ | .query _, _ => by
    unfold visitSource
    exact Attempt.ensures_ofOption nofun

theorem visitAccess_keeps (h : Keeps P t q) : (es : List HostExpr) →
    (∀ node ∈ HostExpr.embeddedAll es, node.Holds P) →
    (t.visitAccess q es).Ensures (Node.Holds P)
  | source :: rest, he => by
    unfold visitAccess
    split
    · rename_i source' name type heq
      cases heq
      exact (visitSource_keeps h source (List.forall_mem_append.mp he).1).bind
        fun part _ => bindMember_ensures h.hereditary.field _ _ _
    · exact Attempt.ensures_ofOption nofun
  | [], _ => by
    unfold visitAccess
    exact Attempt.ensures_ofOption nofun

end

/-- **Whatever an expression is visited to is well mapped.** -/
theorem visit_ensures (ht : t.Sound) (hq : q.WellMapped) (e : HostExpr)
    (he : ∀ node ∈ e.embedded, node.WellMapped) (stripped : Bool) :
    (t.visit q stripped e).Ensures Node.WellMapped := visit_keeps (ht.keeps hq) e he stripped

end Translator

/-! ## What queries project -/

namespace Select

variable {P : Scalar → Prop} {q : Select}

theorem position_wellMapped (i : Nat) : (position i).WellMapped :=
  Node.wellMapped_scalar (.mapped Scalar.mapped_constant)

theorem exists_position (entries : List (OutputPath × Node)) :
    ∀ q : Select, ∀ entry ∈ (q.addOutputs entries).2, ∃ i, entry.2 = position i := by
  induction entries with
  | nil => intro q; exact nofun
  | cons entry rest ih =>
    intro q
    exact List.forall_mem_cons.mpr ⟨⟨_, rfl⟩, ih _⟩

/-- In place of what a statement projected there are positions of output fields. -/
theorem applyProjection_holds (hposition : ∀ i, (position i).Holds P)
    (hq : ∀ entry ∈ q.mapping, entry.2.Holds P) :
    ∀ entry ∈ q.applyProjection.mapping, entry.2.Holds P := by
  unfold applyProjection
  split
  · exact hq
  · intro entry hentry
    obtain ⟨i, hi⟩ := exists_position _ q entry hentry
    rw [hi]
    exact hposition i

/-- The positions of output fields are constants with a mapping. -/
theorem WellMapped.applyProjection (hq : q.WellMapped) : q.applyProjection.WellMapped :=
  applyProjection_holds position_wellMapped hq

end Select

/-- What a query projects is no scalar, whatever operators were applied to it. -/
theorem ShapedQuery.Operated.holds {P : Scalar → Prop} {t : Translator} {entityType : String}
    {created query : ShapedQuery} (hcreate : ShapedQuery.create t entityType = .ok created)
    (h : ShapedQuery.Operated t created query) :
    ∀ entry ∈ query.select.mapping, entry.2.Holds P := by
  rw [h.sameStart.mapping, ShapedQuery.create_mapping hcreate]
  intro entry hentry
  cases List.mem_singleton.mp hentry
  exact nofun

/-- What a query projects is well mapped, whatever operators were applied to it. -/
theorem ShapedQuery.Operated.wellMapped {t : Translator} {entityType : String}
    {created query : ShapedQuery} (hcreate : ShapedQuery.create t entityType = .ok created)
    (h : ShapedQuery.Operated t created query) : query.select.WellMapped := h.holds hcreate

/-! ## Translation -/

namespace Translator

variable {t : Translator} {q : Select}

/-- Inference finishes a well-mapped scalar, or finds that a mapping cannot be had. -/
theorem finish_of_wellMapped {x : Scalar} (hx : x.WellMapped) :
    finish x = .ok (x.applyMapping none) := by
  unfold finish
  split
  · rename_i hnone
    rw [hnone]
  · rename_i s hs
    rw [(Scalar.firstUnmapped?_eq_none_iff s).mpr (hx.applyMapping hs), hs]

/-- A translation is the scalar of a visit, finished. -/
theorem translate_eq {x : Scalar} {e : HostExpr} (h : (t.visit q false e).Yields (.scalar x)) :
    t.translate q e = finish x := by
  have hrun : (Attempt.scalar (t.visit q false e)).run = .ok (some x) :=
    Attempt.yields_scalar.mpr h
  simp only [translate, hrun]
  rfl

/-- What is translated was visited to a scalar, and finished. -/
theorem exists_visit_of_translate {e : HostExpr} {s : Scalar} (h : t.translate q e = .ok (some s)) :
    ∃ x, (t.visit q false e).Yields (.scalar x) ∧ finish x = .ok (some s) := by
  obtain ⟨o, ho, h⟩ := Except.bind_eq_ok_iff.mp h
  cases o with
  | none => cases h
  | some x => exact ⟨x, Attempt.yields_scalar.mp ho, h⟩

/-- A finished scalar is what inference makes of it. -/
theorem applyMapping_of_finish {x s : Scalar} (h : finish x = .ok (some s)) :
    x.applyMapping none = some s := by
  unfold finish at h
  split at h
  · cases h
  · split at h
    · cases h
      assumption
    · cases h

/-- Nothing is left to finish in a mapped scalar. -/
theorem eq_of_finish {x s : Scalar} (hx : x.Mapped) (h : finish x = .ok (some s)) : s = x := by
  have hfinished := applyMapping_of_finish h
  rw [Scalar.applyMapping_of_isSome hx.root] at hfinished
  exact (Option.some.inj hfinished).symm

theorem translate_neverUnmapped (ht : t.Sound) (hq : q.WellMapped) {e : HostExpr}
    (he : ∀ node ∈ e.embedded, node.WellMapped) : NeverUnmapped (t.translate q e) := by
  have hvisit := (visit_ensures ht hq e he false).scalar
  intro text h
  rcases Except.bind_eq_error_iff.mp h with h | ⟨o, ho, h⟩
  · exact hvisit.sound text h
  · cases o with
    | none => cases h
    | some x =>
      have h : finish x = .error (.unmapped text) := h
      rw [finish_of_wellMapped (hvisit.yields x ho)] at h
      cases h

end Translator

open Translator in
/-- **Verification never fails.** Once an expression is visited to a scalar and inference has
finished it, every node of it has a mapping, and it is what the translation gives. Two things
carry this: whatever is built over well-mapped operands is mapped, and so is every field that a
member is bound to in a schema that conventions of this library finished. -/
theorem translate_mapped {m : Model} {conventions : List Convention} {t : Translator}
    {entityType : String} {created query : ShapedQuery} {q : Select} {e : HostExpr}
    (hs : m.finish conventions = .ok t.schema)
    (hcreate : ShapedQuery.create t entityType = .ok created)
    (hquery : ShapedQuery.Operated t created query)
    (hq : q = query.select ∨ q = query.finish)
    (ht : t.Sound)
    (he : ∀ node ∈ e.embedded, node.WellMapped) :
    (∀ x s, (t.visit q false e).Yields (.scalar x) → x.applyMapping none = some s →
        s.Mapped ∧ t.translate q e = .ok (some s))
      ∧ (∀ s, t.translate q e = .ok (some s) → s.Mapped)
      ∧ (∀ text, t.translate q e ≠ .error (.unmapped text))
      ∧ (∀ operands s, Scalar.BuiltFrom operands s → (∀ x ∈ operands, x.WellMapped) → s.Mapped)
      ∧ (∀ (shape : EntityShape) name requested onClient f,
        shape.bindMember t.schema name requested onClient = .ok (some (.scalar (.field f))) →
        f.mapping = some ⟨f.property.type⟩) := by
  -- all that stands in the query is well mapped, whichever operators it has been through
  have hq : q.WellMapped := by
    rcases hq with rfl | rfl
    · exact hquery.wellMapped hcreate
    · exact (hquery.wellMapped hcreate).applyProjection
  have hvisit := visit_ensures ht hq e he false
  refine ⟨?_, ?_, translate_neverUnmapped ht hq he, fun _ _ h => h.mapped, ?_⟩
  · intro x s hx hinferred
    -- visits give well-mapped scalars, and inference closes what is open in them
    have hwell := hvisit.yields _ hx x rfl
    refine ⟨hwell.applyMapping hinferred, ?_⟩
    rw [translate_eq hx, finish_of_wellMapped hwell, hinferred]
  · intro s h
    obtain ⟨o, ho, h⟩ := Except.bind_eq_ok_iff.mp h
    cases o with
    | none => cases h
    | some x =>
      have hwell := hvisit.scalar.yields x ho
      have h : finish x = .ok (some s) := h
      rw [finish_of_wellMapped hwell] at h
      exact hwell.applyMapping (Except.ok.inj h)
  · intro shape name requested onClient f h
    exact EntityShape.mapping_of_bindMember (Model.finish_valid hs) h

/-- People and their addresses, as their author writes them down. -/
def peopleModel : Model where
  types := [
    { name := "Address"
      properties := [⟨"City", "Address", .string, none, false, false, none⟩] },
    { name := "Person"
      properties := [⟨"Id", "Person", .int32, none, false, false, none⟩,
        ⟨"Rank", "Person", .byte, none, false, false, none⟩]
      navigations := [⟨"Home", "Person", "Address", false, true⟩] }]

theorem finish_peopleModel :
    peopleModel.finish (Convention.defaults .typeName) = .ok people := rfl

/-- A translator that counts letters with a function of the document store. -/
def countingLetters : Translator where
  schema := people
  methods := [.byName "Count" "letters" .int32]

/-- Whether a home city has as many letters as an embedded part of a query says. -/
def homeCityCounts : HostExpr :=
  .operate .equal
    (.call (.member (.member allPeople.shaper "Home" (.entity "Address")) "City" .string)
      (.ofInstance .string "Count" .int32) [])
    (.query (.scalar (.placeholder "letters" .int32)))

theorem translate_mapped_homeCityCounts : ∃ s,
    peopleModel.finish (Convention.defaults .typeName) = .ok countingLetters.schema
      ∧ ShapedQuery.create countingLetters "Person" = .ok allPeople
      ∧ ShapedQuery.Operated countingLetters allPeople allPeople.distinct
      ∧ countingLetters.Sound
      ∧ (∀ node ∈ homeCityCounts.embedded, node.WellMapped)
      ∧ countingLetters.translate allPeople.distinct.select homeCityCounts = .ok (some s)
      ∧ s.Mapped := by
  have hcreate : ShapedQuery.create countingLetters "Person" = .ok allPeople := rfl
  have ht : countingLetters.Sound :=
    ⟨List.forall_mem_singleton.mpr (MethodRule.byName_sound _ _ _), nofun⟩
  have he : ∀ node ∈ homeCityCounts.embedded, node.WellMapped :=
    List.forall_mem_singleton.mpr (Node.wellMapped_scalar .parameter)
  have h : countingLetters.translate allPeople.distinct.select homeCityCounts
      = .ok (some _) := rfl
  exact ⟨_, finish_peopleModel, hcreate, .distinct .created, ht, he, h,
    (translate_mapped finish_peopleModel hcreate (.distinct .created) (.inl rfl) ht he).2.1 _ h⟩

end Odm
