import Odm.Proofs.Query.Types

/-!
# Two ways to ask for equality

Equality is asked for with the operator or with a method, `a.Equals(b)` or `Equals(a, b)`, where
arguments may be boxed to object. The operator compares whatever its operands are translated to.
The method compares the types of the translated operands first, and values of different types are
never equal; it also takes off the conversion to object, but what was behind it already has the
mapping of its own type.

So for operands that keep their static types, and share them up to nullability, a method never finds
different types, and both ways lead to one comparison. Its sides can differ in one thing: an operand
whose mapping is open takes the other side's mapping, unless it was boxed. The sides are the same
where the operands have the same mapping anyway.
-/

namespace Odm

/-! ## Mappings of operands -/

namespace Scalar

variable {x y x' y' s : Scalar}

/-- The mapping that a scalar has when nothing is inferred for it. -/
def ownMapping (s : Scalar) : Option Mapping := s.mapping <|> s.type.mapping?

theorem ownMapping_of_mapping {m : Mapping} (h : s.mapping = some m) :
    s.ownMapping = some m := by
  rw [ownMapping, h]
  rfl

theorem ownMapping_of_none (h : s.mapping = none) : s.ownMapping = s.type.mapping? := by
  rw [ownMapping, h]
  rfl

/-- Where nothing is inferred for it, a scalar gets its own mapping. -/
theorem WellMapped.mapping_applyMapping (hs : s.WellMapped)
    (h : s.applyMapping none = some x) : x.mapping = s.ownMapping := by
  rcases hs.mapped_or_open with hs | ⟨put, hs⟩
  · rw [applyMapping_of_isSome hs.root] at h
    cases h
    obtain ⟨m, hm⟩ := Option.isSome_iff_exists.mp hs.root
    rw [hm, ownMapping_of_mapping hm]
  · rw [hs.applyMapping] at h
    obtain ⟨m, hm, rfl⟩ := Option.map_eq_some_iff.mp h
    rw [hs.put_mapping, ownMapping_of_none hs.mapping]
    exact hm.symm

/-- An inferred mapping makes no difference to a leaf if it is the leaf's own. -/
theorem WellMapped.applyMapping_eq {inferred : Option Mapping} (hs : s.WellMapped)
    (h : s.mapping = none → ∀ m, inferred = some m → s.ownMapping = some m) :
    s.applyMapping inferred = s.applyMapping none := by
  rcases hs.mapped_or_open with hs | ⟨put, hs⟩
  · rw [applyMapping_of_isSome hs.root, applyMapping_of_isSome hs.root]
  · rw [hs.applyMapping, hs.applyMapping]
    cases inferred with
    | none => rfl
    | some m =>
      have hm := h hs.mapping m rfl
      rw [ownMapping_of_none hs.mapping] at hm
      rw [resolveMapping, resolveMapping, hm]
      rfl

/-- **Operands with one mapping** infer nothing from each other. -/
theorem combine_eq_of_ownMapping {op : BinaryOp} (hx : x.WellMapped) (hy : y.WellMapped)
    (h : x.ownMapping = y.ownMapping) :
    x.combine op y = joinBinary op (x.applyMapping none) (y.applyMapping none) := by
  have hleft : x.applyMapping (sharedMapping x y) = x.applyMapping none := by
    refine hx.applyMapping_eq ?_
    intro hopen m hm
    have hshared : y.mapping = some m := by rwa [sharedMapping, hopen] at hm
    rw [h, ownMapping_of_mapping hshared]
  have hright : y.applyMapping (sharedMapping x y) = y.applyMapping none := by
    refine hy.applyMapping_eq ?_
    intro hopen m hm
    have hshared : x.mapping = some m := by
      rw [sharedMapping, hopen] at hm
      simpa using hm
    rw [← h, ownMapping_of_mapping hshared]
  rw [combine, hleft, hright]

/-! ## Boxed operands -/

/-- What is behind the conversion to object of an operand, or the operand if it is not boxed. -/
def Behind (boxed : Bool) (x x' : Scalar) : Prop :=
  if boxed then x.applyMapping none = some x' else x' = x

/-- Behind a conversion there is the operand, with the mapping that is its own. -/
theorem Behind.keeps {boxed : Bool} (h : Behind boxed x x') (hx : x.WellMapped) :
    x'.WellMapped ∧ x'.type = x.type ∧ x'.bare = x.bare ∧ x'.ownMapping = x.ownMapping
      ∧ x'.applyMapping none = x.applyMapping none := by
  cases boxed with
  | false =>
    obtain rfl : x' = x := h
    exact ⟨hx, rfl, rfl, rfl, rfl⟩
  | true =>
    have hx' : x.applyMapping none = some x' := h
    have hmapped := hx.applyMapping hx'
    obtain ⟨htype, hbare⟩ := hx.keeps_applyMapping hx'
    obtain ⟨m, hm⟩ := Option.isSome_iff_exists.mp hmapped.root
    refine ⟨.mapped hmapped, htype, hbare, ?_, ?_⟩
    · rw [ownMapping_of_mapping hm, ← hm, hx.mapping_applyMapping hx']
    · rw [applyMapping_of_isSome hmapped.root, hx']

/-- An operand with a mapping comes out of its box as it went in. -/
theorem Behind.eq_of_isSome {boxed : Bool} (h : Behind boxed x x')
    (hx : boxed → x.mapping.isSome) : x' = x := by
  cases boxed with
  | false => exact h
  | true =>
    have hx' : x.applyMapping none = some x' := h
    rw [applyMapping_of_isSome (hx rfl)] at hx'
    exact (Option.some.inj hx').symm

end Scalar

/-! ## Calls of equality methods -/

namespace HostExpr

/-- An argument as it is, or boxed to object. -/
def boxedIf (boxed : Bool) (e : HostExpr) : HostExpr :=
  if boxed then .convert e .object else e

/-- A call that compares `a` with `b`: by a method of `a`, or by one that takes both. -/
inductive EqualsCall (a b : HostExpr) : (boxedA boxedB : Bool) → HostExpr → Prop where
  | ofInstance {method : Method} {boxedB : Bool} : method.name = "Equals" →
    EqualsCall a b false boxedB (.call a method [b.boxedIf boxedB])
  | ofClass {method : Method} {boxedA boxedB : Bool} : method.name = "Equals" →
    EqualsCall a b boxedA boxedB (.staticCall method [a.boxedIf boxedA, b.boxedIf boxedB])

end HostExpr

namespace MethodRule

/-- A method of that name is an equality test or nothing. -/
theorem equals_of_builtIn {object : Option Scalar} {method : Method} {arguments : List Scalar}
    {s : Scalar} (hname : method.name = "Equals")
    (h : firstOf (withBuiltIn []) object method arguments = some s) :
    equals object method arguments = some s := by
  obtain ⟨rule, hrule, h⟩ := List.exists_of_findSome?_eq_some h
  rcases List.mem_cons.mp hrule with rfl | hrule
  · exact h
  · -- membership tests have another name
    rw [List.mem_singleton.mp hrule] at h
    unfold contains at h
    split at h
    · simp [Method.isSequenceContains, hname] at h
    · simp [hname] at h
    · cases h

theorem unboxed_of_type {s : Scalar} (h : s.type ≠ .object) : unboxed s = s := by
  unfold unboxed
  split
  · exact absurd rfl h
  · rfl

end MethodRule

namespace Translator

open HostExpr

variable {t : Translator} {q : Select} {a b e : HostExpr} {s : Scalar}

/-- Each argument is visited on its own. -/
theorem visitAll_yields {es : List HostExpr} : ∀ {xs : List Scalar}, (t.visitAll q es).Yields xs →
    List.Forall₂ (fun e x => (t.visit q false e).Yields (.scalar x)) es xs := by
  induction es with
  | nil =>
    intro xs h
    rw [visitAll] at h
    cases Attempt.yields_pure.mp h
    exact .nil
  | cons e rest ih =>
    intro xs h
    rw [visitAll] at h
    obtain ⟨x, hx, h⟩ := Attempt.yields_bind.mp h
    obtain ⟨xs', hrest, h⟩ := Attempt.yields_bind.mp h
    cases Attempt.yields_pure.mp h
    exact .cons (Attempt.yields_scalar.mp hx) (ih hrest)

/-- An argument, boxed or not, is unboxed to what is behind its conversion. -/
theorem yields_boxedIf (h : t.Plain q) {boxed : Bool} (he : t.KeepsType q e)
    (hembedded : ∀ node ∈ e.embedded, node.WellMapped) (hobject : e.type.unwrap ≠ .object)
    (hs : (t.visit q false (e.boxedIf boxed)).Yields (.scalar s)) :
    ∃ x, (t.visit q false e).Yields (.scalar x)
      ∧ Scalar.Behind boxed x (MethodRule.unboxed s) := by
  -- the argument keeps its type, so that it is not of type object itself
  have htype : ∀ {x : Scalar}, (t.visit q false e).Yields (.scalar x) → x.type ≠ .object := by
    intro x hx hobject'
    have hkept := he.type_eq h hembedded hx
    rw [hobject'] at hkept
    exact hobject hkept.symm
  cases boxed with
  | false =>
    have hs : (t.visit q false e).Yields (.scalar s) := hs
    exact ⟨s, hs, MethodRule.unboxed_of_type (htype hs)⟩
  | true =>
    have hs : (t.visit q false (.unary .convert e .object)).Yields (.scalar s) := hs
    obtain ⟨x, hx, hconvert⟩ := visit_convert_yields hs
    -- of the ways to convert only boxing leads to type object
    have hboxed : x.convert .object = some s := by
      rcases convert_eq_some hconvert with ⟨_, hinterface | hsame | henum⟩ | ⟨_, hboxed⟩
      · cases hinterface
      · exact absurd hsame.symm (htype hx)
      · cases henum
      · exact hboxed
    obtain ⟨x', hx', rfl⟩ := Scalar.convert_eq_some hboxed
    exact ⟨x, hx, hx'⟩

/-- A call that is translated compares its two operands, without their boxes. -/
theorem yields_equalsCall (h : t.Plain q) {boxedA boxedB : Bool} (ha : t.KeepsType q a)
    (hb : t.KeepsType q b) (hembedded : ∀ node ∈ a.embedded ++ b.embedded, node.WellMapped)
    (hobjectA : a.type.unwrap ≠ .object) (hobjectB : b.type.unwrap ≠ .object)
    (he : EqualsCall a b boxedA boxedB e) (hs : (t.visit q false e).Yields (.scalar s)) :
    ∃ x y x' y', (t.visit q false a).Yields (.scalar x) ∧ (t.visit q false b).Yields (.scalar y)
      ∧ Scalar.Behind boxedA x x' ∧ Scalar.Behind boxedB y y'
      ∧ MethodRule.equate x' y' = some s := by
  obtain ⟨hembeddedA, hembeddedB⟩ := List.forall_mem_append.mp hembedded
  -- the operands are the object and its argument, or the two arguments
  cases he with
  | @ofInstance method _ hname =>
    have haccess : ¬ isAccess method [b.boxedIf boxedB] := by
      simp [isAccess, Method.isPropertyAccessor, hname]
    rw [visit, if_neg haccess, h.methods] at hs
    obtain ⟨x, hx, hs⟩ := Attempt.yields_bind.mp hs
    obtain ⟨ys, hys, hs⟩ := Attempt.yields_bind.mp hs
    obtain _ | ⟨hy, _ | _⟩ := visitAll_yields hys
    have hequals := MethodRule.equals_of_builtIn hname (Attempt.yields_node.mp hs)
    rw [MethodRule.equals, if_pos hname] at hequals
    obtain ⟨y₀, hy₀, hbehind⟩ := yields_boxedIf h hb hembeddedB hobjectB hy
    exact ⟨x, y₀, x, _, Attempt.yields_scalar.mp hx, hy₀, rfl, hbehind, hequals⟩
  | @ofClass method _ _ hname =>
    have haccess : ¬ isAccess method [a.boxedIf boxedA, b.boxedIf boxedB] := by
      simp [isAccess, Method.isPropertyAccessor, hname]
    rw [visit, if_neg haccess, h.methods] at hs
    obtain ⟨xs, hxs, hs⟩ := Attempt.yields_bind.mp hs
    obtain _ | ⟨hx, _ | ⟨hy, _ | _⟩⟩ := visitAll_yields hxs
    have hequals := MethodRule.equals_of_builtIn hname (Attempt.yields_node.mp hs)
    rw [MethodRule.equals, if_pos hname] at hequals
    obtain ⟨x₀, hx₀, hbehindA⟩ := yields_boxedIf h ha hembeddedA hobjectA hx
    obtain ⟨y₀, hy₀, hbehindB⟩ := yields_boxedIf h hb hembeddedB hobjectB hy
    exact ⟨x₀, y₀, _, _, hx₀, hy₀, hbehindA, hbehindB, hequals⟩

/-- The operator compares what its operands are visited to. -/
theorem combine_of_translate (h : t.Plain q) {type : HostType} {x y : Scalar}
    (hembedded : ∀ node ∈ a.embedded ++ b.embedded, node.WellMapped)
    (hobjectA : a.type.unwrap ≠ .object) (hobjectB : b.type.unwrap ≠ .object)
    (hx : (t.visit q false a).Yields (.scalar x)) (hy : (t.visit q false b).Yields (.scalar y))
    (hs : t.translate q (.binary .equal a b type) = .ok (some s)) :
    x.combine .equal y = some s := by
  obtain ⟨hembeddedA, hembeddedB⟩ := List.forall_mem_append.mp hembedded
  obtain ⟨z, hz, hfinish⟩ := exists_visit_of_translate hs
  rw [visit, if_neg (by decide)] at hz
  obtain ⟨l, hl, hz⟩ := Attempt.yields_bind.mp hz
  obtain ⟨r, hr, hz⟩ := Attempt.yields_bind.mp hz
  -- both operands are translated with the conversions around them as well
  cases (Attempt.yields_scalar.mp hl).unique (yields_of_stripped hobjectA hx)
  cases (Attempt.yields_scalar.mp hr).unique (yields_of_stripped hobjectB hy)
  have hcombine := Attempt.yields_node.mp hz
  have hmapped : z.Mapped := (Scalar.BuiltFrom.combine hcombine).mapped (by
    simp [h.wellMapped_of_yields hembeddedA hx, h.wellMapped_of_yields hembeddedB hy])
  rw [eq_of_finish hmapped hfinish]
  exact hcombine

end Translator

/-! ## The operator and the method -/

open Translator in
/-- **Equals means ==**, for operands that keep their static types. Let two expressions have one
static type up to nullability, other than object. If comparing them with the operator is translated,
and a call of an equality method on them with arguments boxed or not is too, then both are
translated to a comparison, and its sides differ at most in the mapping of a leaf. The comparisons
are the same if no boxed operand is translated to a leaf whose mapping is open, and also if the
operands have the same mapping when they are translated alone. -/
theorem equals_means_equal {t : Translator} {entityType : String} {query : ShapedQuery}
    {a b e : HostExpr} {type : HostType} {boxedA boxedB : Bool} {tree tree' : Scalar}
    (hmethods : t.methods = []) (hmembers : t.members = [])
    (hcreate : ShapedQuery.create t entityType = .ok query)
    (hembedded : ∀ node ∈ a.embedded ++ b.embedded, node.WellMapped)
    (ha : t.KeepsType query.select a) (hb : t.KeepsType query.select b)
    (htypes : a.type.unwrap = b.type.unwrap) (hobject : a.type.unwrap ≠ .object)
    (he : HostExpr.EqualsCall a b boxedA boxedB e)
    (hoperator : t.translate query.select (.binary .equal a b type) = .ok (some tree))
    (hcall : t.translate query.select e = .ok (some tree')) :
    (∃ l r l' r', tree = .binary .equal l r .bool Scalar.boolMapping
      ∧ tree' = .binary .equal l' r' .bool Scalar.boolMapping
      ∧ l'.bare = l.bare ∧ r'.bare = r.bare)
    ∧ ((boxedA → ∀ x, (t.visit query.select false a).Yields (.scalar x) → x.mapping.isSome) →
      (boxedB → ∀ y, (t.visit query.select false b).Yields (.scalar y) → y.mapping.isSome) →
      tree' = tree)
    ∧ ∀ l r, t.translate query.select a = .ok (some l) →
      t.translate query.select b = .ok (some r) → l.mapping = r.mapping → tree' = tree := by
  have hplain := plain_of_create hmethods hmembers hcreate
  have hobjectB : b.type.unwrap ≠ .object := by rwa [← htypes]
  obtain ⟨hembeddedA, hembeddedB⟩ := List.forall_mem_append.mp hembedded
  obtain ⟨z, hz, hfinish⟩ := exists_visit_of_translate hcall
  obtain ⟨x, y, x', y', hx, hy, hbehindA, hbehindB, hequate⟩ :=
    yields_equalsCall hplain ha hb hembedded hobject hobjectB he hz
  have hwellX := hplain.wellMapped_of_yields hembeddedA hx
  have hwellY := hplain.wellMapped_of_yields hembeddedB hy
  obtain ⟨hwellX', htypeX, hbareX, hownX, happlyX⟩ := hbehindA.keeps hwellX
  obtain ⟨hwellY', htypeY, hbareY, hownY, happlyY⟩ := hbehindB.keeps hwellY
  have hcombine : x.combine .equal y = some tree :=
    combine_of_translate hplain hembedded hobject hobjectB hx hy hoperator
  -- operands that keep their types have no different types
  have hcombine' : x'.combine .equal y' = some tree' := by
    have hsame : x'.type.unwrap = y'.type.unwrap := by
      rw [htypeX, htypeY, ha.type_eq hplain hembeddedA hx, hb.type_eq hplain hembeddedB hy,
        htypes]
    rw [MethodRule.equate, if_pos hsame] at hequate
    have hmapped := (Scalar.BuiltFrom.combine hequate).mapped (by simp [hwellX', hwellY'])
    rw [eq_of_finish hmapped hfinish]
    exact hequate
  refine ⟨?_, ?_, ?_⟩
  · obtain ⟨_, l, r, hl, hr, hnode⟩ := Scalar.joinBinary_eq_some hcombine
    obtain ⟨_, l', r', hl', hr', hnode'⟩ := Scalar.joinBinary_eq_some hcombine'
    refine ⟨l, r, l', r', hnode, hnode', ?_, ?_⟩
    · rw [(hwellX'.keeps_applyMapping hl').2, hbareX, (hwellX.keeps_applyMapping hl).2]
    · rw [(hwellY'.keeps_applyMapping hr').2, hbareY, (hwellY.keeps_applyMapping hr).2]
  · intro hopenA hopenB
    have hsameX : x' = x := hbehindA.eq_of_isSome fun hboxed => hopenA hboxed x hx
    have hsameY : y' = y := hbehindB.eq_of_isSome fun hboxed => hopenB hboxed y hy
    rw [hsameX, hsameY, hcombine] at hcombine'
    exact (Option.some.inj hcombine').symm
  · intro l r hl hr hmapping
    rw [translate_eq hx, finish_of_wellMapped hwellX] at hl
    rw [translate_eq hy, finish_of_wellMapped hwellY] at hr
    have hown : x.ownMapping = y.ownMapping := by
      rw [← hwellX.mapping_applyMapping (Except.ok.inj hl), hmapping,
        hwellY.mapping_applyMapping (Except.ok.inj hr)]
    -- nothing is inferred on either way, so boxes make no difference
    have hown' : x'.ownMapping = y'.ownMapping := by rw [hownX, hownY, hown]
    rw [Scalar.combine_eq_of_ownMapping hwellX hwellY hown] at hcombine
    rw [Scalar.combine_eq_of_ownMapping hwellX' hwellY' hown', happlyX, happlyY,
      hcombine] at hcombine'
    exact (Option.some.inj hcombine').symm

/-- A model of shirts, which need not have a size. -/
def shirtModel : Model where
  types := [
    { name := "Shirt"
      properties := [⟨"Id", "Shirt", .int32, none, false, false, none⟩,
        ⟨"Size", "Shirt", .nullable .int32, none, false, false, none⟩,
        ⟨"Color", "Shirt", .enum "Color" .int32, none, false, false, none⟩] }]

/-- Translates expressions on shirts. -/
def shirtTranslator : Translator where
  schema := {
    types := [
      { name := "Shirt", collection := some "Shirt", discriminatorValue := some "Shirt"
        key := some ["Id"]
        properties := [⟨"Id", "Shirt", .int32, some "_id", false, false, some .onAdd⟩,
          ⟨"Size", "Shirt", .nullable .int32, none, false, false, none⟩,
          ⟨"Color", "Shirt", .enum "Color" .int32, none, false, false, none⟩] }]
    discriminatorElement := "_t" }

/-- All shirts. -/
def allShirts : ShapedQuery where
  select :=
    { entityType := "Shirt"
      collection := "Shirt"
      mapping := [(.root, .entity (.root "Shirt" Select.rootAlias))] }
  shaper := .shaper "Shirt" (.projected .root (.entity "Shirt"))

/-- The size of a shirt. -/
def shirtSize : HostExpr := .member allShirts.shaper "Size" (.nullable .int32)

/-- The color of a shirt, as any enumeration. -/
def shirtColor : HostExpr :=
  .convert (.member allShirts.shaper "Color" (.enum "Color" .int32)) .enumBase

/-- The size five. -/
def five : HostExpr := .constant (.int 5) .int32

/-- The call of the equality method of a size, with a boxed argument. -/
def sizeEquals (argument : HostExpr) : HostExpr :=
  .call shirtSize (.instanceEquals (.nullable .int32)) [.convert argument .object]

/-- The size of a shirt is compared with a boxed five. -/
theorem equals_means_equal_size : ∃ tree tree' l r l' r',
    shirtTranslator.translate allShirts.select (.operate .equal shirtSize five) = .ok (some tree)
      ∧ shirtTranslator.translate allShirts.select (sizeEquals five) = .ok (some tree')
      ∧ tree = .binary .equal l r .bool Scalar.boolMapping
      ∧ tree' = .binary .equal l' r' .bool Scalar.boolMapping
      ∧ l'.bare = l.bare ∧ r'.bare = r.bare := by
  have hcreate : ShapedQuery.create shirtTranslator "Shirt" = .ok allShirts := rfl
  -- the size is a field of the type that the expression says
  have hsize : shirtTranslator.KeepsType allShirts.select shirtSize := by
    refine .member ?_
    intro f hf
    have hfield : (shirtTranslator.visit allShirts.select false shirtSize).Yields _ := rfl
    cases hf.unique hfield
    rfl
  have hoperator : shirtTranslator.translate allShirts.select (.operate .equal shirtSize five)
      = .ok (some _) := rfl
  have hcall : shirtTranslator.translate allShirts.select (sizeEquals five)
      = .ok (some _) := rfl
  have hembedded : ∀ node ∈ shirtSize.embedded ++ five.embedded, node.WellMapped := nofun
  have hequals : HostExpr.EqualsCall shirtSize five false true (sizeEquals five) :=
    .ofInstance rfl
  obtain ⟨l, r, l', r', htree, htree', hsides⟩ := (equals_means_equal rfl rfl hcreate hembedded
    hsize .constant rfl nofun hequals hoperator hcall).1
  exact ⟨_, _, l, r, l', r', hoperator, hcall, htree, htree', hsides⟩

/-- A shade, as any enumeration. -/
def shade : HostExpr := .convert (.constant (.int 1) (.enum "Shade" .int32)) .enumBase

/-- A boxed five keeps its own mapping, where the operator gives it that of the size. And a color
and a shade, both seen as any enumeration, are compared by the operator, but have different types
for the method. -/
theorem equals_differs_from_operator :
    shirtModel.finish (Convention.defaults .typeName) = .ok shirtTranslator.schema
      ∧ ShapedQuery.create shirtTranslator "Shirt" = .ok allShirts
      ∧ (∃ tree tree',
        shirtTranslator.translate allShirts.select (.operate .equal shirtSize five)
            = .ok (some tree)
          ∧ shirtTranslator.translate allShirts.select (sizeEquals five) = .ok (some tree')
          ∧ tree.children.map (·.mapping)
            = [some ⟨.nullable .int32⟩, some ⟨.nullable .int32⟩]
          ∧ tree'.children.map (·.mapping) = [some ⟨.nullable .int32⟩, some ⟨.int32⟩])
      ∧ (∃ l r, shirtTranslator.translate allShirts.select (.operate .equal shirtColor shade)
        = .ok (some (.binary .equal l r .bool Scalar.boolMapping)))
      ∧ shirtTranslator.translate allShirts.select
          (.call shirtColor (.instanceEquals .enumBase) [shade])
        = .ok (some (.constant (.bool false) .bool Scalar.boolMapping)) :=
  ⟨rfl, rfl, ⟨_, _, rfl, rfl, rfl, rfl⟩, ⟨_, _, rfl⟩, rfl⟩

end Odm
