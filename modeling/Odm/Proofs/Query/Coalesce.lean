import Mathlib.Logic.Function.Iterate
import Odm.Proofs.Query.Types

/-!
# Coalescing is written out

Document stores have no operator for `l ?? r`. The translator takes it for `l != null ? l : r` and
makes no node of its own for it. So a finished scalar has no coalescing anywhere, provided that
neither the embedded parts of a query nor the rules for methods and members bring one along. This
is one more property that is handed on from operands to nodes, and inference keeps it because it
puts nodes together anew just as building does.

In `Translator.visit` the operands of a coalescing are visited in place. A translator that takes the
text above literally visits the rewritten expression, in which `l` stands twice, and this one is
larger than the one it came from. `Translator.layer` is one step of such a translator, with what it
makes of smaller expressions left open. Its recursion ends by the rank of expressions, which counts
how deep they are nested and puts a coalescing above its rewriting. After as many layers as the
rank says, nothing is left open.
-/

namespace Odm

/-! ## The rewriting -/

namespace HostExpr

/-- The conditional that a coalescing is taken for, with a null of the type of the left operand. -/
def uncoalesced (left right : HostExpr) : HostExpr :=
  .choose (.operate .notEqual left (.null left.type)) left right

end HostExpr

namespace Attempt

theorem scalar_node (o : Option Scalar) : scalar (node o) = ofOption o := by
  cases o <;> rfl

theorem scalar_bind {α : Type} (x : Attempt α) (f : α → Attempt Node) :
    scalar (x >>= f) = x >>= fun a => scalar (f a) := bind_assoc _ _ _

end Attempt

namespace Translator

variable {t : Translator} {q : Select}

/-- **A coalescing is visited as its rewriting.** -/
theorem visit_coalesce (left right : HostExpr) (type : HostType) (stripped stripped' : Bool) :
    t.visit q stripped (.binary .coalesce left right type)
      = t.visit q stripped' (.uncoalesced left right) := by
  have hnull : Attempt.scalar (t.visit q true (.constant .null left.type))
      = pure (.literal .null left.type) := by
    rw [visit]
    rfl
  rw [HostExpr.uncoalesced, HostExpr.choose, HostExpr.operate, HostExpr.null, visit, if_pos rfl,
    visit, visit, if_neg (by decide), hnull]
  rw [Attempt.scalar_bind, bind_assoc]
  simp only [pure_bind, Attempt.scalar_node]

/-- A coalescing and its rewriting have one translation, one failure or one error. -/
theorem translate_coalesce (left right : HostExpr) (type : HostType) :
    t.translate q (.binary .coalesce left right type)
      = t.translate q (.uncoalesced left right) := by
  rw [translate, translate, visit_coalesce left right type false false]

end Translator

/-! ## Layers of translation -/

/-- What expressions are visited to, and what the sources of members lead to. -/
structure Visitor where
  visit : HostExpr → Attempt Node
  source : HostExpr → Attempt Node

namespace Visitor

/-- The scalars that expressions stand for, from left to right up to the first that has none. -/
def scalars (v : Visitor) : List HostExpr → Attempt (List Scalar)
  | [] => pure []
  | e :: rest => do
    let s ← Attempt.scalar (v.visit e)
    let ss ← v.scalars rest
    pure (s :: ss)

/-- The member of that name of what a source leads to. -/
def bindOn (v : Visitor) (t : Translator) (source : HostExpr) (name : String) : Attempt Node := do
  t.bindMember (← v.source source) source.convertedType? name

/-- The property accessed by a call with these arguments. -/
def access (v : Visitor) (t : Translator) : List HostExpr → Attempt Node
  | [source, .constant (.str name) _] => v.bindOn t source name
  | _ => Attempt.ofOption none

/-- The scalar node that an expression is translated to, if there is one. -/
def translate (v : Visitor) (e : HostExpr) : Except QueryError (Option Scalar) := do
  match ← (Attempt.scalar (v.visit e)).run with
  | none => return none
  | some s => Translator.finish s

end Visitor

/-- One layer of translation. What is visited below it is left to `v`, and a coalescing is
rewritten and left to it as a whole. -/
def Translator.layer (t : Translator) (q : Select) (v : Visitor) : Visitor where
  visit
    | .constant value type => pure (.scalar (.literal value type))
    | .parameter name type => pure (.scalar (.placeholder name type))
    | .member source name type => v.bindOn t source name <|> do
      let object ← Attempt.scalar (v.visit source)
      Attempt.node (MemberRule.firstOf t.members (some object) name type)
    | .staticMember name type => Attempt.node (MemberRule.firstOf t.members none name type)
    | .call object method arguments =>
      if HostExpr.isAccess method arguments then v.access t arguments
      else do
        let object ← Attempt.scalar (v.visit object)
        let arguments ← v.scalars arguments
        Attempt.node
          (MethodRule.firstOf (MethodRule.withBuiltIn t.methods) (some object) method arguments)
    | .staticCall method arguments =>
      if HostExpr.isAccess method arguments then v.access t arguments
      else do
        let arguments ← v.scalars arguments
        Attempt.node (MethodRule.firstOf (MethodRule.withBuiltIn t.methods) none method arguments)
    | .binary op left right _ =>
      if op = .coalesce then v.visit (.uncoalesced left right)
      else do
        let left ← Attempt.scalar (v.visit left.stripped)
        let right ← Attempt.scalar (v.visit right.stripped)
        Attempt.node (left.combine op right)
    | .unary op operand type => do
      let operand ← Attempt.scalar (v.visit operand)
      Attempt.node (applyUnary op type operand)
    | .conditional test ifTrue ifFalse _ => do
      let test ← Attempt.scalar (v.visit test)
      let ifTrue ← Attempt.scalar (v.visit ifTrue)
      let ifFalse ← Attempt.scalar (v.visit ifFalse)
      Attempt.node (Scalar.choose test ifTrue ifFalse)
    | .construct type members arguments => visitLiteral (.construct type members arguments)
    | .memberInit type members arguments bindings =>
      visitLiteral (.memberInit type members arguments bindings)
    | .newArray _ _ | .listInit _ _ _ _ | .lambda _ _ | .invoke _ _ _ => Attempt.ofOption none
    | .shaper _ buffer => v.visit buffer
    | .projected path _ => OptionT.lift (q.mapped path)
    | .query node => pure node
  source
    | .shaper _ buffer => v.visit buffer
    | .member source name _ => v.bindOn t source name
    | .call _ method arguments | .staticCall method arguments =>
      if HostExpr.isAccess method arguments then v.access t arguments else Attempt.ofOption none
    | .unary op operand _ => if op.isConversion then v.source operand else Attempt.ofOption none
    | _ => Attempt.ofOption none

namespace HostExpr

mutual

/-- How many layers of translation an expression needs. What is translated without a visit to its
parts needs one, and a coalescing ranks above the conditional that it is taken for. -/
def rank : HostExpr → Nat
  | .member source _ _ => source.rank + 1
  | .call object _ arguments => max object.rank (rankAll arguments) + 1
  | .staticCall _ arguments => rankAll arguments + 1
  | .binary op left right _ => max left.rank right.rank + if op = .coalesce then 3 else 1
  | .unary _ operand _ => operand.rank + 1
  | .conditional test ifTrue ifFalse _ => max test.rank (max ifTrue.rank ifFalse.rank) + 1
  | .shaper _ buffer => buffer.rank + 1
  | .constant _ _ | .parameter _ _ | .staticMember _ _ | .construct _ _ _ | .memberInit _ _ _ _
  | .newArray _ _ | .listInit _ _ _ _ | .lambda _ _ | .invoke _ _ _ | .projected _ _
  | .query _ => 1

/-- How many layers a list of expressions needs. -/
def rankAll : List HostExpr → Nat
  | [] => 0
  | e :: rest => max e.rank (rankAll rest)

end

theorem one_le_rank (e : HostExpr) : 1 ≤ e.rank := by
  cases e with
  | binary op left right type =>
    unfold rank
    split <;> omega
  | _ =>
    unfold rank
    omega

theorem rank_stripped_le (e : HostExpr) : e.stripped.rank ≤ e.rank := by
  fun_induction stripped e with
  | case1 operand type h ih =>
    rw [rank]
    omega
  | case2 operand type h => exact Nat.le_refl _
  | case3 e h => exact Nat.le_refl _

/-- **The rewriting of a coalescing ranks below it**, though it has the left operand twice. -/
theorem rank_uncoalesced_lt (left right : HostExpr) (type : HostType) :
    (uncoalesced left right).rank < (HostExpr.binary .coalesce left right type).rank := by
  have hleft := one_le_rank left
  simp only [uncoalesced, choose, operate, null, rank]
  simp
  omega

end HostExpr

namespace Visitor

variable {v : Visitor} {t : Translator} {q : Select} {n : Nat}

/-- A visitor does what a translator does, for expressions up to a rank. -/
structure Agrees (v : Visitor) (t : Translator) (q : Select) (n : Nat) : Prop where
  visit : ∀ e, e.rank ≤ n → v.visit e = t.visit q false e
  source : ∀ e, e.rank ≤ n → v.source e = t.visitSource q e

theorem translate_congr {e : HostExpr} (h : v.visit e = t.visit q false e) :
    v.translate e = t.translate q e := by
  have hvisitor : (Visitor.mk (t.visit q false) (t.visitSource q)).translate e
      = t.translate q e := rfl
  rw [← hvisitor]
  unfold translate
  rw [h]

theorem agrees_zero (v : Visitor) (t : Translator) (q : Select) : v.Agrees t q 0 where
  visit e he := absurd e.one_le_rank (by omega)
  source e he := absurd e.one_le_rank (by omega)

namespace Agrees

theorem scalars (h : v.Agrees t q n) {es : List HostExpr} (hes : HostExpr.rankAll es ≤ n) :
    v.scalars es = t.visitAll q es := by
  induction es with
  | nil => rw [Visitor.scalars, Translator.visitAll]
  | cons e rest ih =>
    rw [HostExpr.rankAll] at hes
    rw [Visitor.scalars, Translator.visitAll, h.visit e (by omega), ih (by omega)]

theorem bindOn (h : v.Agrees t q n) {source : HostExpr} (hsource : source.rank ≤ n)
    (name : String) : v.bindOn t source name = t.bindOn q source name := by
  rw [Visitor.bindOn, Translator.bindOn, h.source source hsource]

theorem access (h : v.Agrees t q n) {es : List HostExpr} (hes : HostExpr.rankAll es ≤ n) :
    v.access t es = t.visitAccess q es := by
  by_cases hshape : ∃ source name type, es = [source, .constant (.str name) type]
  · obtain ⟨source, name, type, rfl⟩ := hshape
    rw [HostExpr.rankAll] at hes
    exact h.bindOn (by omega) name
  · -- what is no access of a property by name is left to the other translations
    have hleft : v.access t es = Attempt.ofOption none := by
      unfold Visitor.access
      split
      · exact absurd ⟨_, _, _, rfl⟩ hshape
      · rfl
    have hright : t.visitAccess q es = Attempt.ofOption none := by
      unfold Translator.visitAccess
      split
      · exact absurd ⟨_, _, _, rfl⟩ hshape
      · rfl
    rw [hleft, hright]

/-- **One layer more and expressions may rank one higher.** -/
theorem layer (h : v.Agrees t q n) : (t.layer q v).Agrees t q (n + 1) where
  visit e he := by
    cases e with
    -- leaves do not ask the visitor behind the layer
    | constant value type => rw [Translator.visit, Translator.layer]
    | parameter name type => rw [Translator.visit, Translator.layer]
    | member source name type =>
      rw [HostExpr.rank] at he
      rw [Translator.visit_member, ← h.bindOn (by omega) name, ← h.visit source (by omega)]
      rfl
    | staticMember name type => rw [Translator.visit, Translator.layer]
    | call object method arguments =>
      rw [HostExpr.rank] at he
      rw [Translator.visit, ← h.access (by omega), ← h.visit object (by omega),
        ← h.scalars (by omega)]
      rfl
    | staticCall method arguments =>
      rw [HostExpr.rank] at he
      rw [Translator.visit, ← h.access (by omega), ← h.scalars (by omega)]
      rfl
    | binary op left right type =>
      by_cases hop : op = .coalesce
      · subst hop
        -- the conditional ranks below the coalescing, though it has the left operand twice
        have hrank := HostExpr.rank_uncoalesced_lt left right type
        rw [Translator.visit_coalesce left right type false false, ← h.visit _ (by omega)]
        rfl
      · rw [HostExpr.rank, if_neg hop] at he
        have hleft := left.rank_stripped_le
        have hright := right.rank_stripped_le
        rw [Translator.visit, if_neg hop, Translator.visit_stripped, Translator.visit_stripped,
          ← h.visit left.stripped (by omega), ← h.visit right.stripped (by omega)]
        exact if_neg hop
    | unary op operand type =>
      rw [HostExpr.rank] at he
      rw [Translator.visit, if_neg (by simp), ← h.visit operand (by omega)]
      rfl
    | conditional test ifTrue ifFalse type =>
      rw [HostExpr.rank] at he
      rw [Translator.visit, ← h.visit test (by omega), ← h.visit ifTrue (by omega),
        ← h.visit ifFalse (by omega)]
      rfl
    | construct type members arguments => rw [Translator.visit, Translator.layer]
    | memberInit type members arguments bindings => rw [Translator.visit, Translator.layer]
    | newArray element items => rw [Translator.visit, Translator.layer]
    | listInit type members arguments items => rw [Translator.visit, Translator.layer]
    | lambda parameters body => rw [Translator.visit, Translator.layer]
    | invoke function arguments type => rw [Translator.visit, Translator.layer]
    | shaper entityType buffer =>
      rw [HostExpr.rank] at he
      rw [Translator.visit, ← h.visit buffer (by omega)]
      rfl
    | projected path type => rw [Translator.visit, Translator.layer]
    | query node => rw [Translator.visit, Translator.layer]
  -- sources lead down to a shaper, a member or an access
  source e he := by
    cases e with
    | shaper entityType buffer =>
      rw [HostExpr.rank] at he
      rw [Translator.visitSource, ← h.visit buffer (by omega)]
      rfl
    | member source name type =>
      rw [HostExpr.rank] at he
      rw [Translator.visitSource, ← Translator.bindOn, ← h.bindOn (by omega) name]
      rfl
    | call object method arguments =>
      rw [HostExpr.rank] at he
      rw [Translator.visitSource, ← h.access (by omega)]
      rfl
    | staticCall method arguments =>
      rw [HostExpr.rank] at he
      rw [Translator.visitSource, ← h.access (by omega)]
      rfl
    | unary op operand type =>
      rw [HostExpr.rank] at he
      rw [Translator.visitSource, ← h.source operand (by omega)]
      rfl
    | _ =>
      unfold Translator.visitSource
      rfl

end Agrees

/-- **Translation ends.** After as many layers as an expression ranks, it does not matter what is
below them. -/
theorem agrees_layers (v : Visitor) (t : Translator) (q : Select) (n : Nat) :
    ((t.layer q)^[n] v).Agrees t q n := by
  induction n with
  | zero => exact agrees_zero _ t q
  | succ n ih =>
    rw [Function.iterate_succ_apply']
    exact ih.layer

end Visitor

/-! ## Scalars without coalescings -/

namespace Scalar

/-- No node is a coalescing. -/
def CoalesceFree (s : Scalar) : Prop := ∀ x, s.Subnode x → x.isCoalesce = false

theorem coalesceFree_iff {s : Scalar} :
    s.CoalesceFree ↔ s.isCoalesce = false ∧ ∀ x ∈ s.children, x.CoalesceFree :=
  forall_subnode_iff

theorem lasting_isCoalesce : Lasting fun s => s.isCoalesce = false where
  literal _ _ := rfl
  placeholder _ _ := rfl
  field _ _ := rfl
  remapped _ _ _ := rfl
  joined h := h.isCoalesce

/-- **Inference makes no coalescing.** -/
theorem CoalesceFree.applyMapping {s s' : Scalar} {inferred : Option Mapping}
    (hs : s.CoalesceFree) (h : s.applyMapping inferred = some s') : s'.CoalesceFree :=
  lasting_isCoalesce.applyMapping hs h

/-- Building makes no coalescing either. -/
theorem hereditary_coalesceFree : Hereditary CoalesceFree := lasting_isCoalesce.hereditary

end Scalar

/-! ## Queries -/

theorem Select.position_coalesceFree (i : Nat) : (position i).Holds Scalar.CoalesceFree :=
  Node.holds_scalar (Scalar.coalesceFree_iff.mpr ⟨rfl, nofun⟩)

open Scalar in
/-- **Coalescing is written out.** A coalescing is translated like the conditional that it stands
for. No translation has a coalescing in it, unless an embedded part of the query or a rule brings
one along. And though the conditional has the left operand twice, it ranks below the coalescing, so
translation ends: behind as many layers as an expression ranks, nothing matters any more. -/
theorem coalesce_written_out {t : Translator} {entityType : String} {created query : ShapedQuery}
    {q : Select} (hcreate : ShapedQuery.create t entityType = .ok created)
    (hquery : ShapedQuery.Operated t created query)
    (hq : q = query.select ∨ q = query.finish) :
    (∀ left right type, t.translate q (.binary .coalesce left right type)
        = t.translate q (.uncoalesced left right))
      ∧ (∀ e s, (∀ rule ∈ t.methods, rule.Keeps CoalesceFree) →
        (∀ rule ∈ t.members, rule.Keeps CoalesceFree) →
        (∀ node ∈ e.embedded, node.Holds CoalesceFree) →
        t.translate q e = .ok (some s) → s.CoalesceFree)
      ∧ (∀ left right type, (HostExpr.uncoalesced left right).rank
        < (HostExpr.binary .coalesce left right type).rank)
      ∧ ∀ e v n, e.rank ≤ n → ((t.layer q)^[n] v).translate e = t.translate q e := by
  -- everything that can be embedded in the query holds no coalescing
  have hmapping : ∀ entry ∈ q.mapping, entry.2.Holds CoalesceFree := by
    rcases hq with rfl | rfl
    · exact hquery.holds hcreate
    · exact Select.applyProjection_holds Select.position_coalesceFree (hquery.holds hcreate)
  refine ⟨Translator.translate_coalesce, ?_, HostExpr.rank_uncoalesced_lt, ?_⟩
  · intro e s hmethods hmembers he h
    have hkeeps : Translator.Keeps CoalesceFree t q :=
      ⟨hereditary_coalesceFree, hmethods, hmembers, hmapping⟩
    obtain ⟨x, hx, hfinish⟩ := Translator.exists_visit_of_translate h
    have hfree := (Translator.visit_keeps hkeeps e he false).yields _ hx x rfl
    exact hfree.applyMapping (Translator.applyMapping_of_finish hfinish)
  · intro e v n he
    have hagrees := Visitor.agrees_layers v t q n
    exact Visitor.translate_congr (hagrees.visit e he)

/-- The city where someone lives, or else the one that is known, or else nowhere. -/
def cityOrNowhere : HostExpr :=
  .operate .coalesce
    (.operate .coalesce
      (.member (.member allPeople.shaper "Home" (.entity "Address")) "City" .string)
      (.parameter "known" .string))
    (.constant (.str "nowhere") .string)

/-- The visitor that knows of no expression what it stands for. -/
def Visitor.ignorant : Visitor := ⟨fun _ => .ofOption none, fun _ => .ofOption none⟩

theorem coalesce_written_out_city : ∃ s,
    ShapedQuery.create { schema := people } "Person" = .ok allPeople
      ∧ ShapedQuery.Operated { schema := people } allPeople allPeople.distinct
      ∧ Translator.translate { schema := people } allPeople.distinct.select cityOrNowhere
        = .ok (some s)
      ∧ s.CoalesceFree
      ∧ ((Translator.layer { schema := people } allPeople.distinct.select)^[10]
        .ignorant).translate cityOrNowhere = .ok (some s) := by
  have hcreate : ShapedQuery.create { schema := people } "Person" = .ok allPeople := rfl
  have hquery : ShapedQuery.Operated { schema := people } allPeople allPeople.distinct :=
    .distinct .created
  have h : Translator.translate { schema := people } allPeople.distinct.select cityOrNowhere
      = .ok (some _) := rfl
  obtain ⟨_, hfree, _, hlayers⟩ := coalesce_written_out hcreate hquery (.inl rfl)
  have hembedded : ∀ node ∈ cityOrNowhere.embedded, node.Holds Scalar.CoalesceFree :=
    List.forall_mem_nil _
  have hrank : cityOrNowhere.rank ≤ 10 := by decide
  exact ⟨_, hcreate, hquery, h, hfree _ _ nofun nofun hembedded h,
    (hlayers _ _ _ hrank).trans h⟩

end Odm
