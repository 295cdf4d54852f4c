import Odm.Proofs.Query.Lookup
import Odm.Proofs.Update.Embedding

/-!
# Binding with memory is binding

A session remembers what members were bound to under nothing but their declaring types and names.
That is enough to tell members apart that are found in a schema: each is declared on one type, and
is the first one of its name there. What is remembered for a field does not depend on whether the
document has to deliver it, and what is remembered for a navigation is a shape of the session,
which never changes its type nor its access, whatever it comes to remember itself.

So what a session remembers is always what its members are bound to without memory, and each call
on a shape of a session answers as on a shape that has been asked nothing yet.
-/

namespace Odm

/-! ## Members that are found -/

theorem EntityType.navigation?_name {t : EntityType} {name : String} {n : Navigation}
    (h : t.navigation? name = some n) : n.name = name := by
  have hname := List.find?_some h
  rwa [decide_eq_true_eq] at hname

/-- A member that is found on some type of the schema. -/
def Schema.Finds (s : Schema) : Member → Prop
  | .property p => ∃ typeName name, s.findProperty? typeName name = some p
  | .navigation n => ∃ typeName name, s.findNavigation? typeName name = some n

namespace Schema

variable {s : Schema}

/-- A member that is looked up by its name is found. -/
theorem finds_of_member? {typeName name : String} {member : Member}
    (h : s.member? typeName name = some member) : s.Finds member := by
  cases hp : s.findProperty? typeName name with
  | some p =>
    rw [member?_of_property hp] at h
    cases h
    exact ⟨typeName, name, hp⟩
  | none =>
    rw [member?_of_no_property hp] at h
    obtain ⟨n, hn, rfl⟩ := Option.map_eq_some_iff.mp h
    exact ⟨typeName, name, hn⟩

section Declared

variable {α : Type} {get? : EntityType → String → Option α} {declaringType name : α → String}

/-- What is found along a chain is the first of its name on its declaring type. -/
theorem declared_of_found (hget : ∀ t ∈ s.types, ∀ key a, get? t key = some a →
      declaringType a = t.name ∧ name a = key) {typeName key : String} {a : α}
    (ha : (s.chain typeName).findSome? (get? · key) = some a) :
    (s.find? (declaringType a)).bind (get? · (name a)) = some a := by
  obtain ⟨t, ht, hfound⟩ := List.exists_of_findSome?_eq_some ha
  obtain ⟨hdeclaring, hname⟩ := hget t (Catalog.mem_types_of_mem_chain ht) key a hfound
  rw [hdeclaring, Catalog.find?_of_mem_climb ht, Option.bind_some, hname, hfound]

/-- Declaring type and name tell apart what is found, on whatever types. -/
theorem eq_of_found (hget : ∀ t ∈ s.types, ∀ key a, get? t key = some a →
      declaringType a = t.name ∧ name a = key) {typeName typeName' key key' : String} {a b : α}
    (ha : (s.chain typeName).findSome? (get? · key) = some a)
    (hb : (s.chain typeName').findSome? (get? · key') = some b)
    (hkey : (declaringType a, name a) = (declaringType b, name b)) : a = b := by
  obtain ⟨htype, hname⟩ := Prod.mk.inj hkey
  have hfound := declared_of_found hget ha
  rw [htype, hname, declared_of_found hget hb] at hfound
  exact (Option.some.inj hfound).symm

end Declared

/-- **Declaring type and name tell properties apart.** -/
theorem Finds.property_eq (hdeclares : s.DeclaresMembers) {p q : Property}
    (hp : s.Finds (.property p)) (hq : s.Finds (.property q))
    (hkey : (p.declaringType, p.name) = (q.declaringType, q.name)) : p = q := by
  obtain ⟨_, _, hp⟩ := hp
  obtain ⟨_, _, hq⟩ := hq
  have hget : ∀ t ∈ s.types, ∀ key p, t.property? key = some p →
      p.declaringType = t.name ∧ p.name = key := fun t ht key p hp =>
    ⟨(hdeclares t ht).properties p (List.mem_of_find?_eq_some hp), EntityType.property?_name hp⟩
  exact eq_of_found hget hp hq hkey

/-- **Declaring type and name tell navigations apart.** -/
theorem Finds.navigation_eq (hdeclares : s.DeclaresMembers) {n k : Navigation}
    (hn : s.Finds (.navigation n)) (hk : s.Finds (.navigation k))
    (hkey : (n.declaringType, n.name) = (k.declaringType, k.name)) : n = k := by
  obtain ⟨_, _, hn⟩ := hn
  obtain ⟨_, _, hk⟩ := hk
  have hget : ∀ t ∈ s.types, ∀ key n, t.navigation? key = some n →
      n.declaringType = t.name ∧ n.name = key := fun t ht key n hn =>
    ⟨(hdeclares t ht).navigations n (List.mem_of_find?_eq_some hn), EntityType.navigation?_name hn⟩
  exact eq_of_found hget hn hk hkey

end Schema

/-! ## Calls -/

/-- A call that binds a member of a shape. -/
inductive BindingCall where
  | member (name : String) (requested : Option HostType) (onClient : Bool)
  | property (p : Property) (onClient : Bool)
  | navigation (n : Navigation)

/-- The property or navigation that a call is given was found in the schema. -/
def BindingCall.Found (s : Schema) : BindingCall → Prop
  | .member _ _ _ => True
  | .property p _ => s.Finds (.property p)
  | .navigation n => s.Finds (.navigation n)

/-- The answer to a call without memory. -/
def EntityShape.answer (s : Schema) (shape : EntityShape) :
    BindingCall → Except QueryError (Option Node)
  | .member name requested onClient => shape.bindMember s name requested onClient
  | .property p onClient => shape.bindFound s onClient (some (.property p))
  | .navigation n => shape.bindFound s false (some (.navigation n))

namespace BindingSession

/-- A session that has met one shape and remembers nothing. -/
def fresh (shape : EntityShape) : BindingSession := ⟨[{ shape := shape }]⟩

/-- The type and the access of a shape, without what it remembers. -/
def shapeAt? (session : BindingSession) (number : Nat) : Option EntityShape :=
  (session.shape? number).map (·.shape)

/-- What a bound member is in the session: where it leads to a shape, the one that the session has,
also as the shape of the items of an array. -/
def read? (session : BindingSession) : Bound → Option Node
  | .field f => some (.scalar (.field f))
  | .entity number => (session.shapeAt? number).map .entity
  | .array array number =>
    (session.shapeAt? number).map fun inner => .array { array with inner := inner }

/-- A call on a shape of the session. -/
def call (s : Schema) (session : BindingSession) (number : Nat) :
    BindingCall → Except QueryError (Option Bound × BindingSession)
  | .member name requested onClient => session.bindMember s number name requested onClient
  | .property p onClient => session.bindFound s number onClient (some (.property p))
  | .navigation n => session.bindFound s number false (some (.navigation n))

/-- The answer to a call, as the session has it afterwards. -/
def answer (s : Schema) (session : BindingSession) (number : Nat) (call : BindingCall) :
    Except QueryError (Option Node) :=
  (session.call s number call).map fun (found, later) => found.bind later.read?

/-- The session after a call on one of its shapes. A call that fails leaves it as it is. -/
def next (s : Schema) (session : BindingSession) (call : Nat × BindingCall) : BindingSession :=
  match session.call s call.1 call.2 with
  | .ok (_, later) => later
  | .error _ => session

/-- The session after calls on its shapes, among them those that earlier calls have led to. -/
def after (s : Schema) (session : BindingSession) (calls : List (Nat × BindingCall)) :
    BindingSession :=
  calls.foldl (next s) session

variable {s : Schema} {session later : BindingSession} {number : Nat} {bound : BoundShape}

/-! ## Shapes stay -/

/-- The shapes of a session are those of the other one as well, under the same numbers. -/
def Extends (session later : BindingSession) : Prop :=
  ∀ number shape, session.shapeAt? number = some shape → later.shapeAt? number = some shape

theorem Extends.refl (session : BindingSession) : session.Extends session := fun _ _ h => h

theorem Extends.trans {last : BindingSession} (h : session.Extends later)
    (h' : later.Extends last) : session.Extends last :=
  fun number shape hshape => h' number shape (h number shape hshape)

theorem extends_modify (session : BindingSession) (number : Nat) {f : BoundShape → BoundShape}
    (hf : ∀ b, (f b).shape = b.shape) : session.Extends (session.modify number f) := by
  intro i shape hshape
  obtain ⟨b, hb, rfl⟩ := Option.map_eq_some_iff.mp hshape
  rw [shapeAt?, shape?, modify, List.getElem?_modify, show session.shapes[i]? = some b from hb]
  rw [Option.map_eq_map, Option.map_some, Option.map_some]
  split
  · rw [hf]
  · rfl

theorem extends_add (session : BindingSession) (shape : EntityShape) :
    session.Extends (session.add shape).2 := by
  intro i other hother
  obtain ⟨b, hb, rfl⟩ := Option.map_eq_some_iff.mp hother
  have hlt : i < session.shapes.length := (List.getElem?_eq_some_iff.mp hb).1
  have hfound : session.shapes[i]? = some b := hb
  rw [shapeAt?, shape?, add, List.getElem?_append_left hlt, hfound]
  rfl

theorem shapeAt?_add (session : BindingSession) (shape : EntityShape) :
    (session.add shape).2.shapeAt? (session.add shape).1 = some shape := by
  rw [shapeAt?, shape?, add, List.getElem?_concat_length]
  rfl

/-- What was bound stays what it is. -/
theorem Extends.read? (h : session.Extends later) {found : Bound} {node : Node}
    (hread : session.read? found = some node) : later.read? found = some node := by
  cases found with
  | field f => exact hread
  | entity number =>
    obtain ⟨shape, hshape, rfl⟩ := Option.map_eq_some_iff.mp hread
    rw [BindingSession.read?, h number shape hshape]
    rfl
  | array array number =>
    obtain ⟨shape, hshape, rfl⟩ := Option.map_eq_some_iff.mp hread
    rw [BindingSession.read?, h number shape hshape]
    rfl

/-! ## What is remembered -/

/-- What a shape remembers is what members are bound to without memory. -/
structure Remembers (s : Schema) (session : BindingSession) (bound : BoundShape) : Prop where
  field : ∀ p, s.Finds (.property p) → ∀ f,
    bound.fields.lookup (p.declaringType, p.name) = some f →
      f = Field.ofProperty p bound.shape.access
  navigation : ∀ n, s.Finds (.navigation n) → ∀ found,
    bound.navigations.lookup (n.declaringType, n.name) = some found →
      ∃ node, bound.shape.bindNavigation s n = .ok node ∧ session.read? found = some node

/-- All shapes of a session remember what members are bound to without memory. -/
def Faithful (s : Schema) (session : BindingSession) : Prop :=
  ∀ bound ∈ session.shapes, session.Remembers s bound

theorem remembers_nothing (session : BindingSession) (shape : EntityShape) :
    session.Remembers s { shape := shape } where
  field _ _ _ h := nomatch h
  navigation _ _ _ h := nomatch h

theorem faithful_fresh (shape : EntityShape) : (fresh shape).Faithful s := by
  intro bound hbound
  rw [List.mem_singleton.mp hbound]
  exact remembers_nothing _ shape

theorem Remembers.mono (h : session.Remembers s bound) (hextends : session.Extends later) :
    later.Remembers s bound where
  field := h.field
  navigation n hn found hfound := by
    obtain ⟨node, hnode, hread⟩ := h.navigation n hn found hfound
    exact ⟨node, hnode, hextends.read? hread⟩

theorem Faithful.add (h : session.Faithful s) (shape : EntityShape) :
    (session.add shape).2.Faithful s := by
  intro bound hbound
  rcases List.mem_append.mp hbound with hbound | hbound
  · exact (h bound hbound).mono (session.extends_add shape)
  · rw [List.mem_singleton.mp hbound]
    exact remembers_nothing _ shape

/-- A session stays faithful when one of its shapes comes to remember something true. -/
theorem Faithful.modify (h : session.Faithful s) {f : BoundShape → BoundShape}
    (hshape : ∀ b, (f b).shape = b.shape)
    (hf : ∀ b, session.shape? number = some b →
      (session.modify number f).Remembers s b → (session.modify number f).Remembers s (f b)) :
    (session.modify number f).Faithful s := by
  have hextends := session.extends_modify number hshape
  intro bound hbound
  obtain ⟨i, hi⟩ := List.mem_iff_getElem?.mp hbound
  rw [BindingSession.modify, List.getElem?_modify] at hi
  obtain ⟨b, hb, rfl⟩ := Option.map_eq_some_iff.mp hi
  have hremembers := (h b (List.mem_of_getElem? hb)).mono hextends
  split
  · rename_i hnumber
    subst hnumber
    exact hf b hb hremembers
  · exact hremembers

/-- A field that is remembered was made from the property that is asked for. -/
theorem Remembers.addField (hdeclares : s.DeclaresMembers) (h : session.Remembers s bound)
    {p : Property} (hp : s.Finds (.property p)) :
    session.Remembers s { bound with fields :=
      ((p.declaringType, p.name), Field.ofProperty p bound.shape.access) :: bound.fields } where
  field q hq f hf := by
    rw [List.lookup_cons] at hf
    split at hf
    · rename_i hkey
      rw [hq.property_eq hdeclares hp (eq_of_beq hkey)]
      exact (Option.some.inj hf).symm
    · exact h.field q hq f hf
  navigation := h.navigation

theorem Remembers.addNavigation (hdeclares : s.DeclaresMembers) (h : session.Remembers s bound)
    {n : Navigation} (hn : s.Finds (.navigation n)) {found : Bound} {node : Node}
    (hnode : bound.shape.bindNavigation s n = .ok node) (hread : session.read? found = some node) :
    session.Remembers s { bound with navigations :=
      ((n.declaringType, n.name), found) :: bound.navigations } where
  field := h.field
  navigation k hk other hother := by
    rw [List.lookup_cons] at hother
    split at hother
    · rename_i hkey
      rw [hk.navigation_eq hdeclares hn (eq_of_beq hkey), ← Option.some.inj hother]
      exact ⟨node, hnode, hread⟩
    · exact h.navigation k hk other hother

/-! ## One call -/

/-- A call on a session agrees with one without memory: both fail with the same error, or what is
found is the same in the later session, which is faithful again. -/
inductive Agrees (s : Schema) (session : BindingSession) :
    Except QueryError (Option Bound × BindingSession) → Except QueryError (Option Node) → Prop where
  | error (e : QueryError) : Agrees s session (.error e) (.error e)
  | ok {found : Option Bound} {later : BindingSession} {node : Option Node}
    (hfaithful : later.Faithful s) (hextends : session.Extends later)
    (hread : found.map later.read? = node.map some) :
    Agrees s session (.ok (found, later)) (.ok node)

theorem Agrees.bind {α : Type} {first : Except QueryError α}
    {x : α → Except QueryError (Option Bound × BindingSession)}
    {y : α → Except QueryError (Option Node)}
    (h : ∀ a, first = .ok a → Agrees s session (x a) (y a)) :
    Agrees s session (first >>= x) (first >>= y) := by
  cases first with
  | error e => exact .error e
  | ok a => exact h a rfl

/-! ### Properties -/

theorem bindFound_property (hbound : session.shape? number = some bound) (p : Property)
    (onClient : Bool) :
    session.bindFound s number onClient (some (.property p))
      = bound.shape.checkMember s p.declaringType p.name >>= fun _ =>
        match bound.fields.lookup (p.declaringType, p.name) with
        | some f => .ok ((f.delivered? onClient).map .field, session)
        | none =>
          let f := Field.ofProperty p bound.shape.access
          .ok ((f.delivered? onClient).map .field, session.modify number fun b =>
            { b with fields := ((p.declaringType, p.name), f) :: b.fields }) := by
  rw [bindFound, BindingSession.bindProperty, hbound]
  dsimp only
  cases bound.shape.checkMember s p.declaringType p.name with
  | error e => rfl
  | ok _ => cases bound.fields.lookup (p.declaringType, p.name) <;> rfl

theorem plain_bindFound_property (shape : EntityShape) (p : Property) (onClient : Bool) :
    shape.bindFound s onClient (some (.property p))
      = shape.checkMember s p.declaringType p.name >>= fun _ =>
        .ok (((Field.ofProperty p shape.access).delivered? onClient).map
          fun f => .scalar (.field f)) := by
  rw [EntityShape.bindFound, EntityShape.bindProperty]
  cases shape.checkMember s p.declaringType p.name <;> rfl

/-- What is read of a field does not depend on the session. -/
theorem map_read?_field (session : BindingSession) (f : Option Field) :
    (f.map Bound.field).map session.read?
      = (f.map fun f => Node.scalar (.field f)).map some := by
  cases f <;> rfl

/-- **A property is bound to the same field, whether it is remembered or not.** -/
theorem Faithful.bindProperty (hdeclares : s.DeclaresMembers) (h : session.Faithful s)
    (hbound : session.shape? number = some bound) {p : Property} (hp : s.Finds (.property p))
    (onClient : Bool) :
    Agrees s session (session.bindFound s number onClient (some (.property p)))
      (bound.shape.bindFound s onClient (some (.property p))) := by
  rw [bindFound_property hbound, plain_bindFound_property]
  refine .bind fun _ _ => ?_
  -- whether a field is delivered is decided on what is remembered, not remembered itself
  cases hknown : bound.fields.lookup (p.declaringType, p.name) with
  | some f =>
    rw [(h bound (List.mem_of_getElem? hbound)).field p hp f hknown]
    exact .ok h (.refl session) (map_read?_field session _)
  | none =>
    refine .ok ?_ (session.extends_modify number fun _ => rfl) (map_read?_field _ _)
    refine h.modify (fun _ => rfl) fun b hb hremembers => ?_
    cases hbound.symm.trans hb
    exact hremembers.addField hdeclares hp

/-! ### Navigations -/

/-- The shape that a navigation leads to if its target is embedded under a name. -/
def partShape (shape : EntityShape) (n : Navigation) (name : String) : EntityShape :=
  if n.isCollection then .root n.target "" else ⟨n.target, .object n name shape.access⟩

/-- What a navigation stands for, where the shape that it leads to has a number. -/
def partBound (shape : EntityShape) (n : Navigation) (name : String) (number : Nat) : Bound :=
  if n.isCollection then .array ⟨n, name, shape.access, partShape shape n name⟩ number
  else .entity number

/-- What a navigation stands for without memory. -/
def partNode (shape : EntityShape) (n : Navigation) (name : String) : Node :=
  if n.isCollection then .array ⟨n, name, shape.access, partShape shape n name⟩
  else .entity (partShape shape n name)

theorem read?_partBound {shape : EntityShape} {n : Navigation} {name : String}
    (h : session.shapeAt? number = some (partShape shape n name)) :
    session.read? (partBound shape n name number) = some (partNode shape n name) := by
  rw [partBound, partNode]
  split
  · rw [read?, h]
    rfl
  · rw [read?, h]
    rfl

theorem plain_bindNavigation (shape : EntityShape) (n : Navigation) :
    shape.bindNavigation s n = shape.checkMember s n.declaringType n.name >>= fun _ =>
      s.embeddedName n >>= fun name => .ok (partNode shape n name) := by
  rw [EntityShape.bindNavigation]
  refine bind_congr fun _ => ?_
  unfold partNode partShape
  split
  · rw [ArrayShape.ofNavigation]
    cases s.embeddedName n <;> rfl
  · rfl

/-- An array whose items get a shape of their own. -/
theorem addArray_none (session : BindingSession) (access : Access) (n : Navigation) :
    session.addArray s access n none = s.embeddedName n >>= fun name =>
      let (number, later) := session.add (.root n.target "")
      .ok (.array ⟨n, name, access, .root n.target ""⟩ number, later) := by
  unfold addArray ArrayShape.ofNavigation
  cases s.embeddedName n <;> rfl

/-- A navigation that is not remembered leads to one more shape, and is remembered from then on. -/
theorem bindNavigation_eq (hbound : session.shape? number = some bound) (n : Navigation) :
    session.bindNavigation s number n
      = bound.shape.checkMember s n.declaringType n.name >>= fun _ =>
        match bound.navigations.lookup (n.declaringType, n.name) with
        | some known => .ok (some known, session)
        | none => s.embeddedName n >>= fun name =>
          let (target, later) := session.add (partShape bound.shape n name)
          let found := partBound bound.shape n name target
          .ok (some found, later.modify number fun b =>
            { b with navigations := ((n.declaringType, n.name), found) :: b.navigations }) := by
  rw [BindingSession.bindNavigation, hbound]
  refine bind_congr fun _ => ?_
  dsimp only
  cases bound.navigations.lookup (n.declaringType, n.name) with
  | some known => rfl
  | none =>
    cases hcollection : n.isCollection with
    | true =>
      simp only [partBound, partShape, hcollection, if_true, addArray_none]
      cases s.embeddedName n <;> rfl
    | false =>
      simp only [partBound, partShape, hcollection, Bool.false_eq_true, if_false]
      cases s.embeddedName n <;> rfl

/-- A navigation is remembered, once there is a shape that it leads to. -/
theorem Faithful.learn (hdeclares : s.DeclaresMembers) (h : session.Faithful s)
    (hbound : session.shape? number = some bound) {n : Navigation} (hn : s.Finds (.navigation n))
    {name : String} (hnode : bound.shape.bindNavigation s n = .ok (partNode bound.shape n name))
    {target : Nat} {added : BindingSession}
    (hadd : session.add (partShape bound.shape n name) = (target, added)) :
    Agrees s session
      (.ok (some (partBound bound.shape n name target), added.modify number fun b =>
        { b with navigations := ((n.declaringType, n.name),
          partBound bound.shape n name target) :: b.navigations }))
      (.ok (some (partNode bound.shape n name))) := by
  have hextends := session.extends_add (partShape bound.shape n name)
  have hfaithful := h.add (partShape bound.shape n name)
  have htarget := session.shapeAt?_add (partShape bound.shape n name)
  rw [hadd] at hextends hfaithful htarget
  have hmodify := added.extends_modify number (f := fun b =>
    { b with navigations := ((n.declaringType, n.name),
      partBound bound.shape n name target) :: b.navigations }) fun _ => rfl
  have hread := read?_partBound (hmodify _ _ htarget)
  refine .ok ?_ (hextends.trans hmodify) (congrArg some hread)
  refine hfaithful.modify (fun _ => rfl) fun b hb hremembers => ?_
  -- the shape that comes to remember the navigation is still the one that was asked
  have hsame : b.shape = bound.shape := by
    have hshape := hextends number bound.shape (congrArg (Option.map BoundShape.shape) hbound)
    rw [shapeAt?, hb] at hshape
    exact Option.some.inj hshape
  exact hremembers.addNavigation hdeclares hn (hsame ▸ hnode) hread

/-- **A navigation leads to the same shape, whether it is remembered or not.** -/
theorem Faithful.bindNavigation (hdeclares : s.DeclaresMembers) (h : session.Faithful s)
    (hbound : session.shape? number = some bound) {n : Navigation} (hn : s.Finds (.navigation n))
    (onClient : Bool) :
    Agrees s session (session.bindFound s number onClient (some (.navigation n)))
      (bound.shape.bindFound s onClient (some (.navigation n))) := by
  have hplain := plain_bindNavigation (s := s) bound.shape n
  rw [bindFound, EntityShape.bindFound, bindNavigation_eq hbound, hplain, bind_assoc]
  refine .bind fun _ hcheck => ?_
  rw [hcheck] at hplain
  cases hknown : bound.navigations.lookup (n.declaringType, n.name) with
  | some known =>
    obtain ⟨node, hnode, hread⟩ :=
      (h bound (List.mem_of_getElem? hbound)).navigation n hn known hknown
    -- the target is embedded under the name that it had when the navigation was remembered
    have hname : (s.embeddedName n >>= fun name => .ok (partNode bound.shape n name))
        = .ok node := hplain.symm.trans hnode
    rw [hname]
    exact .ok h (.refl session) (congrArg some hread)
  | none =>
    rw [bind_assoc]
    refine .bind fun name hname => ?_
    rw [hname] at hplain
    exact h.learn hdeclares hbound hn hplain rfl

/-! ### All calls -/

theorem Faithful.bindFound (hdeclares : s.DeclaresMembers) (h : session.Faithful s)
    (hbound : session.shape? number = some bound) {found : Option Member}
    (hfound : ∀ member ∈ found, s.Finds member) (onClient : Bool) :
    Agrees s session (session.bindFound s number onClient found)
      (bound.shape.bindFound s onClient found) := by
  cases found with
  | none => exact .ok h (.refl session) rfl
  | some member =>
    cases member with
    | property p => exact h.bindProperty hdeclares hbound (hfound _ rfl) onClient
    | navigation n => exact h.bindNavigation hdeclares hbound (hfound _ rfl) onClient

/-- **A call on a faithful session agrees with the same call without memory.** -/
theorem Faithful.call (hdeclares : s.DeclaresMembers) (h : session.Faithful s)
    (hbound : session.shape? number = some bound) {call : BindingCall} (hcall : call.Found s) :
    Agrees s session (session.call s number call) (bound.shape.answer s call) := by
  cases call with
  | member name requested onClient =>
    have hlooksUp := bound.shape.looksUp_lookupType s name requested onClient
    rw [BindingSession.call, EntityShape.answer,
      hlooksUp.remembered session number bound hbound rfl, hlooksUp.plain]
    refine .bind fun typeName _ => ?_
    exact h.bindFound hdeclares hbound (fun _ hmember => Schema.finds_of_member? hmember) onClient
  | property p onClient => exact h.bindProperty hdeclares hbound hcall onClient
  | navigation n => exact h.bindNavigation hdeclares hbound hcall false

/-- Hence it has the same answer. -/
theorem Agrees.answer_eq {call : BindingCall} {answer : Except QueryError (Option Node)}
    (h : Agrees s session (session.call s number call) answer) :
    session.answer s number call = answer := by
  rw [BindingSession.answer]
  generalize session.call s number call = result at h
  -- what is found has a shape that is read back, and it is the node of the answer
  cases h with
  | error e => rfl
  | @ok found later node _ _ hread =>
    cases found with
    | none =>
      cases node with
      | none => rfl
      | some _ => cases hread
    | some found =>
      cases node with
      | none => cases hread
      | some node => exact congrArg Except.ok (Option.some.inj hread)

/-- Without such a shape nothing is bound. -/
theorem call_of_none (hnone : session.shape? number = none) (call : BindingCall) :
    session.call s number call = .ok (none, session) := by
  cases call with
  | member name requested onClient => rw [BindingSession.call, bindMember, hnone]
  | property p onClient =>
    rw [BindingSession.call, BindingSession.bindFound, BindingSession.bindProperty, hnone]
    rfl
  | navigation n =>
    rw [BindingSession.call, BindingSession.bindFound, BindingSession.bindNavigation, hnone]

/-- **Each call leaves a faithful session**, with the shapes that there were. -/
theorem Faithful.next (hdeclares : s.DeclaresMembers) (h : session.Faithful s)
    {call : Nat × BindingCall} (hcall : call.2.Found s) :
    (session.next s call).Faithful s ∧ session.Extends (session.next s call) := by
  rw [BindingSession.next]
  cases hbound : session.shape? call.1 with
  | none =>
    rw [call_of_none hbound]
    exact ⟨h, .refl session⟩
  | some bound =>
    have hagrees := h.call hdeclares hbound hcall
    generalize session.call s call.1 call.2 = result at hagrees
    generalize bound.shape.answer s call.2 = plain at hagrees
    cases hagrees with
    | error e => exact ⟨h, .refl session⟩
    | ok hfaithful hextends _ => exact ⟨hfaithful, hextends⟩

/-- So do all calls. -/
theorem Faithful.after (hdeclares : s.DeclaresMembers) {calls : List (Nat × BindingCall)}
    (hcalls : ∀ call ∈ calls, call.2.Found s) : ∀ {session : BindingSession}, session.Faithful s →
      (session.after s calls).Faithful s ∧ session.Extends (session.after s calls) := by
  induction calls with
  | nil => exact fun h => ⟨h, .refl _⟩
  | cons call rest ih =>
    intro session h
    obtain ⟨hfirst, hrest⟩ := List.forall_mem_cons.mp hcalls
    obtain ⟨hnext, hextends⟩ := h.next hdeclares hfirst
    obtain ⟨hafter, hlater⟩ := ih hrest hnext
    exact ⟨hafter, hextends.trans hlater⟩

/-- A faithful session answers as there is an answer without memory. -/
theorem Faithful.answer_eq (hdeclares : s.DeclaresMembers) (h : session.Faithful s)
    {shape : EntityShape} (hshape : session.shapeAt? number = some shape) {call : BindingCall}
    (hcall : call.Found s) : session.answer s number call = shape.answer s call := by
  obtain ⟨bound, hbound, rfl⟩ := Option.map_eq_some_iff.mp hshape
  exact (h.call hdeclares hbound hcall).answer_eq

end BindingSession

/-! ## Sessions of finished schemas -/

open BindingSession in
/-- **Memory does not show.** Whatever calls on a shape, and on the shapes that these lead to, come
before, with any types asked for and with or without client evaluation, as long as the properties
and navigations that they are given were found in the schema: each call on one of these shapes
answers, or fails, just as on a shape of that type and access that remembers nothing, and as
without any memory at all. The shape keeps its type and its access in all later calls. The schema
is one that conventions of this library finished. -/
theorem memory_transparent {m : Model} {conventions : List Convention} {s : Schema}
    (hdeclares : m.DeclaresMembers) (h : m.finish conventions = .ok s) (start : EntityShape)
    {calls : List (Nat × BindingCall)} (hcalls : ∀ call ∈ calls, call.2.Found s) {number : Nat}
    {shape : EntityShape} (hshape : ((fresh start).after s calls).shapeAt? number = some shape)
    {call : BindingCall} (hcall : call.Found s) :
    ((fresh start).after s calls).answer s number call = (fresh shape).answer s 0 call
      ∧ ((fresh start).after s calls).answer s number call = shape.answer s call
      ∧ ∀ later : List (Nat × BindingCall), (∀ call ∈ later, call.2.Found s) →
        ((fresh start).after s (calls ++ later)).shapeAt? number = some shape := by
  have hs : s.DeclaresMembers := Model.finish_declaresMembers h hdeclares
  have hafter := ((faithful_fresh start).after hs hcalls).1
  have hanswer := hafter.answer_eq hs hshape hcall
  have hfresh : (fresh shape).answer s 0 call = shape.answer s call :=
    (faithful_fresh shape).answer_eq hs rfl hcall
  refine ⟨hanswer.trans hfresh.symm, hanswer, ?_⟩
  intro later hlater
  rw [BindingSession.after, List.foldl_append]
  exact (hafter.after hs hlater).2 number shape hshape

/-- The children of a family. -/
def familyChildren : Navigation := ⟨"Children", "Family", "Child", true, true⟩

/-- The toys of a child. -/
def childToys : Navigation := ⟨"Toys", "Child", "Toy", true, true⟩

/-- The children of a family are bound, then their toys, then the children once more. -/
def familyCalls : List (Nat × BindingCall) :=
  [(0, .member "Children" none false), (1, .navigation childToys), (0, .navigation familyChildren)]

/-- The toys of the children of a family are found where they were found before. -/
theorem memory_transparent_toys :
    householdModel.DeclaresMembers
      ∧ householdModel.finish (Convention.defaults .typeName) = .ok household
      ∧ (∀ call ∈ familyCalls, call.2.Found household)
      ∧ (((BindingSession.fresh (.root "Family" "f")).after household familyCalls).shapeAt? 1)
        = some (.root "Child" "")
      ∧ ((BindingSession.fresh (.root "Family" "f")).after household familyCalls).answer household 1
          (.member "Toys" none true)
        = .ok (some (.array ⟨childToys, "Toys", .root "Child" "", .root "Toy" ""⟩)) := by
  have hdeclares : householdModel.DeclaresMembers := by decide
  have hcalls : ∀ call ∈ familyCalls, call.2.Found household := by
    refine List.forall_mem_cons.mpr ⟨trivial, List.forall_mem_cons.mpr ⟨?_, ?_⟩⟩
    · exact ⟨"Child", "Toys", rfl⟩
    · exact List.forall_mem_singleton.mpr ⟨"Family", "Children", rfl⟩
  have hshape : ((BindingSession.fresh (.root "Family" "f")).after household familyCalls).shapeAt? 1
      = some (.root "Child" "") := rfl
  have hcall : (BindingCall.member "Toys" none true).Found household := trivial
  refine ⟨hdeclares, finish_householdModel, hcalls, hshape, ?_⟩
  exact (memory_transparent hdeclares finish_householdModel _ hcalls hshape hcall).2.1

end Odm
