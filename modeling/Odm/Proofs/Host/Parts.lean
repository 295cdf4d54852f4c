import Odm.Host.Expr

/-!
# Parts of host expressions

An expression of any kind has *direct parts*, in a fixed order, and going down from one direct
part to the next any number of times leads to its *parts*. Most traversals treat most kinds of
expressions alike: they change the direct parts and keep everything else. What such a traversal
does is said once, by `mapChildren`, and what follows from it is proved by induction over direct
parts, whatever the kinds of the expressions are and wherever they keep their lists.
-/

namespace Odm.HostExpr

/-! ## Direct parts -/

/-- The direct parts of an expression, from left to right. -/
def children : HostExpr → List HostExpr
  | .constant _ _ | .parameter _ _ | .staticMember _ _ | .projected _ _ | .query _ => []
  | .member source _ _ => [source]
  | .call object _ arguments => object :: arguments
  | .staticCall _ arguments => arguments
  | .binary _ left right _ => [left, right]
  | .unary _ operand _ => [operand]
  | .conditional test ifTrue ifFalse _ => [test, ifTrue, ifFalse]
  | .construct _ _ arguments => arguments
  | .memberInit _ _ arguments bindings => arguments ++ bindings.map Prod.snd
  | .newArray _ items => items
  | .listInit _ _ arguments items => arguments ++ items
  | .lambda _ body => [body]
  | .invoke function arguments _ => function :: arguments
  | .shaper _ buffer => [buffer]

/-- The expression with each direct part changed in its place. Lists keep their length and their
order, and assignments the names of their members. -/
def mapChildren (f : HostExpr → HostExpr) : HostExpr → HostExpr
  | .constant value type => .constant value type
  | .parameter name type => .parameter name type
  | .member source name type => .member (f source) name type
  | .staticMember name type => .staticMember name type
  | .call object method arguments => .call (f object) method (arguments.map f)
  | .staticCall method arguments => .staticCall method (arguments.map f)
  | .binary op left right type => .binary op (f left) (f right) type
  | .unary op operand type => .unary op (f operand) type
  | .conditional test ifTrue ifFalse type => .conditional (f test) (f ifTrue) (f ifFalse) type
  | .construct type members arguments => .construct type members (arguments.map f)
  | .memberInit type members arguments bindings =>
    .memberInit type members (arguments.map f) (bindings.map fun binding =>
      (binding.1, f binding.2))
  | .newArray element items => .newArray element (items.map f)
  | .listInit type members arguments items =>
    .listInit type members (arguments.map f) (items.map f)
  | .lambda parameters body => .lambda parameters (f body)
  | .invoke function arguments type => .invoke (f function) (arguments.map f) type
  | .shaper entityType buffer => .shaper entityType (f buffer)
  | .projected path type => .projected path type
  | .query node => .query node

variable {f g : HostExpr → HostExpr} {e : HostExpr}

@[simp]
theorem children_mapChildren (f : HostExpr → HostExpr) (e : HostExpr) :
    (e.mapChildren f).children = e.children.map f := by
  cases e <;> simp [mapChildren, children]

theorem mapChildren_mapChildren (f g : HostExpr → HostExpr) (e : HostExpr) :
    (e.mapChildren f).mapChildren g = e.mapChildren fun c => g (f c) := by
  cases e <;> simp [mapChildren]

theorem mapChildren_id (e : HostExpr) : e.mapChildren (fun c => c) = e := by
  cases e <;> simp [mapChildren]

theorem mapChildren_congr (h : ∀ c ∈ e.children, f c = g c) :
    e.mapChildren f = e.mapChildren g := by
  cases e with
  | memberInit type members arguments bindings =>
    have harguments : arguments.map f = arguments.map g :=
      List.map_congr_left fun c hc => h c (List.mem_append_left _ hc)
    have hbindings : ∀ binding ∈ bindings, f binding.2 = g binding.2 := fun binding hb =>
      h _ (List.mem_append_right _ (List.mem_map_of_mem hb))
    simp only [mapChildren, harguments]
    congr 1
    exact List.map_congr_left fun binding hb => by rw [hbindings binding hb]
  | _ => simp_all [mapChildren, children]

/-- Nothing changes where no direct part changes. -/
theorem mapChildren_eq_self (h : ∀ c ∈ e.children, f c = c) : e.mapChildren f = e :=
  (mapChildren_congr h).trans (mapChildren_id e)

theorem sizeOf_lt_of_mem_children {c : HostExpr} (h : c ∈ e.children) : sizeOf c < sizeOf e := by
  have hlist : ∀ es : List HostExpr, c ∈ es → sizeOf c < sizeOf es :=
    fun _ => List.sizeOf_lt_of_mem
  have hbindings : ∀ bindings : List (String × HostExpr), c ∈ bindings.map Prod.snd →
      sizeOf c < sizeOf bindings := by
    intro bindings hc
    obtain ⟨⟨name, _⟩, hbinding, rfl⟩ := List.mem_map.mp hc
    have hlt := List.sizeOf_lt_of_mem hbinding
    rw [Prod.mk.sizeOf_spec] at hlt
    dsimp only
    omega
  cases e <;> grind [children]

/-- **Induction over direct parts.** -/
@[elab_as_elim]
theorem induction_on_children {P : HostExpr → Prop}
    (step : ∀ e, (∀ c ∈ e.children, P c) → P e) (e : HostExpr) : P e :=
  step e fun c _ => induction_on_children step c
termination_by sizeOf e
decreasing_by exact sizeOf_lt_of_mem_children ‹_›

/-! ## Parts at any depth -/

/-- The first expression is a part of the second: it is the expression itself, or a part of one of
its direct parts. -/
inductive Part : HostExpr → HostExpr → Prop where
  | self (e : HostExpr) : Part e e
  | inside {p c e : HostExpr} : c ∈ e.children → Part p c → Part p e

theorem Part.of_mem_children {c : HostExpr} (h : c ∈ e.children) : Part c e := .inside h (.self c)

theorem Part.trans {p q : HostExpr} (h : Part p q) (h' : Part q e) : Part p e := by
  induction h' with
  | self => exact h
  | inside hc _ ih => exact .inside hc ih

/-- What holds of all parts holds of the expression and of all parts of its direct parts. -/
theorem forall_part_iff {P : HostExpr → Prop} :
    (∀ p, Part p e → P p) ↔ P e ∧ ∀ c ∈ e.children, ∀ p, Part p c → P p := by
  constructor
  · intro h
    exact ⟨h e (.self e), fun c hc p hp => h p (.inside hc hp)⟩
  · rintro ⟨hself, hinside⟩ p hp
    cases hp with
    | self => exact hself
    | inside hc hp => exact hinside _ hc p hp

end Odm.HostExpr
