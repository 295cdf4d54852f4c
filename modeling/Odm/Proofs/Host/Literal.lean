import Odm.Proofs.Host.Parts
import Odm.Proofs.Table
import Odm.Query.Translator

/-!
# Literals are made of constants

An expression is looked at before it is evaluated, and the two have to agree on what can be
evaluated. They do: what passes the look is made of constants and constructions down to the last
part, and none of its parts is evaluated by falling back on anything. A fallback would show.
Evaluation takes what it falls back on from outside, so a part whose value is the same whatever
that is has not fallen back, and a part of another kind has no other value.

The literal is then put together from the constants in the expression, and holds under the name
of an assigned member the value that was assigned to it last.
-/

namespace Odm

namespace HostExpr

variable {e c : HostExpr} {f : Fallback} {v : Value}

/-! ## Lists of expressions -/

theorem allKnown_eq_all (es : List HostExpr) : allKnown es = es.all isKnown := by
  induction es with
  | nil => rfl
  | cons e rest ih => rw [allKnown, ih, List.all_cons]

theorem bindingsKnown_eq_all (bindings : List (String × HostExpr)) :
    bindingsKnown bindings = (bindings.map Prod.snd).all isKnown := by
  induction bindings with
  | nil => rfl
  | cons binding rest ih => rw [bindingsKnown, ih, List.map_cons, List.all_cons]

theorem evaluateAll_eq_map (f : Fallback) (es : List HostExpr) :
    evaluateAll f es = es.map (evaluate f) := by
  induction es with
  | nil => rfl
  | cons e rest ih => rw [evaluateAll, ih, List.map_cons]

theorem evaluateBindings_eq_map (f : Fallback) (bindings : List (String × HostExpr)) :
    evaluateBindings f bindings
      = bindings.map fun binding => (binding.1, evaluate f binding.2) := by
  induction bindings with
  | nil => rfl
  | cons binding rest ih => rw [evaluateBindings, ih, List.map_cons]

/-! ## What is known -/

/-- The kinds of expressions that literals are written with. -/
def isLiteralKind : HostExpr → Bool
  | .constant _ _ | .construct _ _ _ | .memberInit _ _ _ _ => true
  | _ => false

theorem isKnown_iff_children : e.isKnown ↔ e.isLiteralKind ∧ ∀ c ∈ e.children, c.isKnown := by
  cases e with
  | memberInit type members arguments bindings =>
    rw [isKnown, allKnown_eq_all, bindingsKnown_eq_all, ← List.all_append, List.all_eq_true]
    exact (and_iff_right rfl).symm
  | _ => simp [isKnown, isLiteralKind, children, allKnown_eq_all]

/-- **Known is what is made of constants and constructions only.** -/
theorem isKnown_iff : e.isKnown ↔ ∀ p, Part p e → p.isLiteralKind := by
  induction e using induction_on_children with
  | step e ih =>
    rw [isKnown_iff_children, forall_part_iff]
    exact and_congr_right fun _ => forall₂_congr ih

theorem isKnown_of_part (h : e.isKnown) (hpart : Part c e) : c.isKnown :=
  isKnown_iff.mpr fun p hp => isKnown_iff.mp h p (hp.trans hpart)

theorem literal?_eq_some_iff : e.literal? = some v ↔ e.isKnown ∧ e.evaluate .nothing = v := by
  simp [literal?]

theorem literal?_isSome (e : HostExpr) : e.literal?.isSome = e.isKnown := by
  cases h : e.isKnown <;> simp [literal?, h]

/-! ## Nothing falls back -/

/-- A construction is always something that members can be assigned to. -/
theorem assignable_constructed (f g : Fallback) (members : List String) (values : List Value) :
    assignable f (constructed members values) = assignable g (constructed members values) := by
  unfold constructed
  split <;> rfl

/-- **The value of a known expression is its own.** -/
theorem evaluate_eq_of_isKnown (h : e.isKnown) (f g : Fallback) : e.evaluate f = e.evaluate g := by
  induction e using induction_on_children with
  | step e ih =>
    obtain ⟨_, hchildren⟩ := isKnown_iff_children.mp h
    -- known expressions have known parts only, so the fallback is asked for none of them
    have hsame : ∀ c ∈ e.children, c.evaluate f = c.evaluate g := fun c hc =>
      ih c hc (hchildren c hc)
    cases e with
    | constant value type => rfl
    | construct type members arguments =>
      have harguments : evaluateAll f arguments = evaluateAll g arguments := by
        rw [evaluateAll_eq_map, evaluateAll_eq_map]
        exact List.map_congr_left hsame
      rw [evaluate, evaluate, harguments]
    | memberInit type members arguments bindings =>
      have harguments : evaluateAll f arguments = evaluateAll g arguments := by
        rw [evaluateAll_eq_map, evaluateAll_eq_map]
        exact List.map_congr_left fun c hc => hsame c (List.mem_append_left _ hc)
      have hbindings : evaluateBindings f bindings = evaluateBindings g bindings := by
        rw [evaluateBindings_eq_map, evaluateBindings_eq_map]
        refine List.map_congr_left fun binding hb => ?_
        rw [hsame binding.2 (List.mem_append_right _ (List.mem_map_of_mem hb))]
      rw [evaluate, evaluate, harguments, hbindings, assignable_constructed f g]
    | _ => cases h

/-- An expression of another kind has no value but what is fallen back on. -/
theorem evaluate_of_otherKind (h : e.isLiteralKind = false) : e.evaluate f = f.value := by
  cases e with
  | constant value type => cases h
  | construct type members arguments => cases h
  | memberInit type members arguments bindings => cases h
  | _ => rfl

/-- **Known is what is evaluated without falling back in any part.** -/
theorem isKnown_iff_evaluate_eq :
    e.isKnown ↔ ∀ p, Part p e → ∀ f g, p.evaluate f = p.evaluate g := by
  constructor
  · intro h p hp
    exact evaluate_eq_of_isKnown (isKnown_of_part h hp)
  · intro h
    refine isKnown_iff.mpr fun p hp => ?_
    cases hkind : p.isLiteralKind with
    | true => rfl
    | false =>
      -- the value would be both of two fallbacks
      have heq := h p hp ⟨.null, []⟩ ⟨.bool true, []⟩
      rw [evaluate_of_otherKind hkind, evaluate_of_otherKind hkind] at heq
      cases heq

/-! ## What literals are made of -/

/-- The value is put together, by arrays and objects, from constants of the expression. -/
inductive Composed (e : HostExpr) : Value → Prop where
  | written {value : Value} {type : HostType} :
    Part (.constant value type) e → Composed e value
  | array {items : List Value} : (∀ v ∈ items, Composed e v) → Composed e (.arr items)
  | object {fields : List (String × Value)} :
    (∀ field ∈ fields, Composed e field.2) → Composed e (.obj fields)

theorem Composed.of_part (h : Composed c v) (hpart : Part c e) : Composed e v := by
  induction h with
  | written h => exact .written (h.trans hpart)
  | array _ ih => exact .array ih
  | object _ ih => exact .object ih

theorem composed_namedFields {members : List String} {values : List Value}
    (h : ∀ v ∈ values, Composed e v) : ∀ field ∈ namedFields members values, Composed e field.2 :=
  fun _ hfield => h _ (List.of_mem_zip (Table.mem_ofEntries hfield)).2

theorem composed_positionalFields {values : List Value} (h : ∀ v ∈ values, Composed e v) :
    ∀ field ∈ positionalFields values, Composed e field.2 := by
  intro field hfield
  obtain ⟨⟨v, i⟩, hv, rfl⟩ := List.mem_map.mp (Table.mem_ofEntries hfield)
  exact h v (List.fst_mem_of_mem_zipIdx hv)

theorem composed_constructed {members : List String} {values : List Value}
    (h : ∀ v ∈ values, Composed e v) : Composed e (constructed members values) := by
  unfold constructed
  split
  · exact .object (composed_namedFields h)
  · exact .array h

theorem composed_assignable {members : List String} {values : List Value}
    (h : ∀ v ∈ values, Composed e v) :
    ∀ field ∈ assignable f (constructed members values), Composed e field.2 := by
  unfold constructed
  split
  · exact composed_namedFields h
  · exact composed_positionalFields h

/-- **The value of a known expression is made of its constants.** -/
theorem composed_evaluate (h : e.isKnown) : Composed e (e.evaluate f) := by
  induction e using induction_on_children with
  | step e ih =>
    obtain ⟨_, hchildren⟩ := isKnown_iff_children.mp h
    have hparts : ∀ c ∈ e.children, Composed e (c.evaluate f) := fun c hc =>
      (ih c hc (hchildren c hc)).of_part (.of_mem_children hc)
    cases e with
    | constant value type => exact .written (.self _)
    | construct type members arguments =>
      rw [evaluate, evaluateAll_eq_map]
      exact composed_constructed (List.forall_mem_map.mpr hparts)
    | memberInit type members arguments bindings =>
      rw [evaluate, evaluateAll_eq_map, evaluateBindings_eq_map]
      -- a field has the value of a binding, or it was assigned by the constructor
      refine .object fun field hfield => ?_
      rcases Table.mem_foldl_insert _ hfield with hfield | hfield
      · obtain ⟨binding, hb, rfl⟩ := List.mem_map.mp hfield
        exact hparts binding.2 (List.mem_append_right _ (List.mem_map_of_mem hb))
      · exact composed_assignable (List.forall_mem_map.mpr fun c hc =>
          hparts c (List.mem_append_left _ hc)) field hfield
    | _ => cases h

/-! ## Assigned members -/

theorem get?_assigned_of_not_mem {name : String} (bindings : List (String × Value)) :
    ∀ {fields : Table String Value}, name ∉ bindings.map Prod.fst →
      (assigned fields bindings).get? name = fields.get? name := by
  induction bindings with
  | nil => exact fun _ => rfl
  | cons binding rest ih =>
    intro fields h
    rw [List.map_cons, List.mem_cons, not_or] at h
    exact (ih h.2).trans (Table.get?_insert_ne fields h.1 binding.2)

/-- **What is assigned last is there.** -/
theorem get?_assigned_last {name : String} {before after : List (String × Value)}
    (fields : Table String Value) (v : Value) (h : name ∉ after.map Prod.fst) :
    (assigned fields (before ++ (name, v) :: after)).get? name = some v := by
  rw [assigned, List.foldl_append, List.foldl_cons]
  exact (get?_assigned_of_not_mem after h).trans (Table.get?_insert_self _ name v)

theorem literal?_memberInit {type : HostType} {members : List String} {name : String}
    {arguments : List HostExpr} {before after : List (String × HostExpr)}
    (hknown : (memberInit type members arguments (before ++ (name, c) :: after)).isKnown)
    (hlast : name ∉ after.map Prod.fst) : ∃ (fields : Table String Value) (v : Value),
      (memberInit type members arguments (before ++ (name, c) :: after)).literal?
        = some (.obj fields) ∧ c.literal? = some v ∧ fields.get? name = some v := by
  have hmem : c ∈ (memberInit type members arguments (before ++ (name, c) :: after)).children := by
    simp [children]
  have hc := isKnown_of_part hknown (.of_mem_children hmem)
  refine ⟨_, _, literal?_eq_some_iff.mpr ⟨hknown, rfl⟩, literal?_eq_some_iff.mpr ⟨hc, rfl⟩, ?_⟩
  rw [evaluateBindings_eq_map, List.map_append, List.map_cons]
  exact get?_assigned_last _ _ (by simpa using hlast)

end HostExpr

/-- **Literals are made of the constants in an expression.** There is a literal exactly for what is
written with constants and constructions only, and exactly for what is evaluated without falling
back on a null, or on no fields, in any of its parts. It becomes a constant of the query with the
type of the expression. It is put together from constants of the expression, and wherever members
are assigned, the value that was assigned last to a name stands under that name. -/
theorem literal_made_of_constants (e : HostExpr) :
    (e.literal?.isSome ↔ ∀ p, HostExpr.Part p e → p.isLiteralKind)
      ∧ (e.literal?.isSome ↔ ∀ p, HostExpr.Part p e → ∀ f g, p.evaluate f = p.evaluate g)
      ∧ ∀ value, e.literal? = some value →
        Translator.visitLiteral e = pure (.scalar (.literal value e.type))
          ∧ HostExpr.Composed e value
          ∧ ∀ type members arguments before name c after,
            HostExpr.Part (.memberInit type members arguments (before ++ (name, c) :: after)) e →
            name ∉ after.map Prod.fst → ∃ (fields : Table String Value) (v : Value),
              (HostExpr.memberInit type members arguments
                (before ++ (name, c) :: after)).literal? = some (.obj fields)
              ∧ c.literal? = some v ∧ fields.get? name = some v := by
  rw [HostExpr.literal?_isSome]
  refine ⟨HostExpr.isKnown_iff, HostExpr.isKnown_iff_evaluate_eq, ?_⟩
  intro value hvalue
  obtain ⟨hknown, rfl⟩ := HostExpr.literal?_eq_some_iff.mp hvalue
  refine ⟨?_, HostExpr.composed_evaluate hknown, ?_⟩
  · rw [Translator.visitLiteral, hvalue]
    rfl
  · intro type members arguments before name c after hpart hlast
    exact HostExpr.literal?_memberInit (HostExpr.isKnown_of_part hknown hpart) hlast

/-- A range from one number to another, with a unit and with a step that is assigned twice. -/
def steppedRange : HostExpr :=
  .memberInit (.named "Range") [] [.constant (.int 1) .int32, .constant (.int 9) .int32]
    [("Step", .constant .null .int32),
      ("Unit", .construct (.anonymous "Unit") ["Name"] [.constant (.str "mm") .string]),
      ("Step", .constant (.int 2) .int32)]

/-- The literal for the range: its ends have no names, and its step is the second one. -/
def steppedRangeValue : Value :=
  .obj [("0", .int 1), ("1", .int 9), ("Step", .int 2), ("Unit", .obj [("Name", .str "mm")])]

theorem literal_made_of_constants_steppedRange :
    steppedRange.literal? = some steppedRangeValue
      ∧ (∀ p, HostExpr.Part p steppedRange → p.isLiteralKind)
      ∧ HostExpr.Composed steppedRange steppedRangeValue
      ∧ ∃ (fields : Table String Value) (v : Value),
        steppedRange.literal? = some (.obj fields)
          ∧ (HostExpr.constant (.int 2) .int32).literal? = some v
          ∧ fields.get? "Step" = some v := by
  have hvalue : steppedRange.literal? = some steppedRangeValue := by rfl
  obtain ⟨hkinds, _, hmade⟩ := literal_made_of_constants steppedRange
  obtain ⟨_, hcomposed, hassigned⟩ := hmade _ hvalue
  exact ⟨hvalue, hkinds.mp (by rw [hvalue]; rfl), hcomposed,
    hassigned _ _ _ [_, _] _ _ [] (.self _) List.not_mem_nil⟩

end Odm
