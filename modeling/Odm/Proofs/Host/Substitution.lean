import Odm.Host.Substitution
import Odm.Proofs.Host.Parts
import Odm.Proofs.Query.Operated

/-!
# Substitution for parameters

A name is *free* in an expression if some parameter of that name stands in it outside of all
lambdas that declare the name. Replacing a parameter by an expression without parameters of its
own takes away the free occurrences of its name and nothing else: other names stay free, an
expression is changed exactly if the name is free in it, and replacements for different names
commute.

All of this follows from what replacement does to one expression. There are three cases: the
parameter itself gives way, a lambda that declares the name is left alone, and everywhere else
replacement goes on in the direct parts.
-/

namespace Odm

namespace HostExpr

variable {x y : String} {r s e : HostExpr}

/-! ## Free names -/

/-- The names that an expression declares for its direct parts. -/
def declared : HostExpr → List String
  | .lambda parameters _ => parameters.map Prod.fst
  | _ => []

/-- Some parameter of the name stands in the expression, outside of all lambdas that declare the
name. -/
inductive Free (x : String) : HostExpr → Prop where
  | parameter (type : HostType) : Free x (.parameter x type)
  | inside {c e : HostExpr} : x ∉ e.declared → c ∈ e.children → Free x c → Free x e

/-- The expression is a parameter of that name. -/
def IsParameter (x : String) (e : HostExpr) : Prop := ∃ type, e = .parameter x type

/-- No part of the expression is a parameter, inside lambdas or not. -/
def ParameterFree (e : HostExpr) : Prop := ∀ p, Part p e → ∀ x, ¬ IsParameter x p

theorem free_iff : Free x e ↔ IsParameter x e ∨ x ∉ e.declared ∧ ∃ c ∈ e.children, Free x c := by
  constructor
  · intro h
    cases h with
    | parameter type => exact .inl ⟨type, rfl⟩
    | inside hd hc h => exact .inr ⟨hd, _, hc, h⟩
  · rintro (⟨type, rfl⟩ | ⟨hd, c, hc, h⟩)
    · exact .parameter type
    · exact .inside hd hc h

theorem IsParameter.free_iff (h : IsParameter x e) : Free y e ↔ y = x := by
  obtain ⟨type, rfl⟩ := h
  constructor
  · intro hfree
    cases hfree with
    | parameter => rfl
    | inside _ hc => cases hc
  · rintro rfl
    exact .parameter type

/-- A lambda hides the names that it declares. -/
theorem not_free_of_declared (h : x ∈ e.declared) : ¬ Free x e := by
  intro hfree
  cases hfree with
  | parameter type => cases h
  | inside hnot _ _ => exact hnot h

/-- Nothing is free in an expression without parameters. -/
theorem ParameterFree.not_free (h : e.ParameterFree) : ¬ Free x e := by
  intro hfree
  induction hfree with
  | parameter type => exact h _ (.self _) _ ⟨type, rfl⟩
  | inside _ hc _ ih => exact ih fun p hp => h p (.inside hc hp)

theorem parameterFree_iff :
    e.ParameterFree ↔ (∀ x, ¬ IsParameter x e) ∧ ∀ c ∈ e.children, c.ParameterFree :=
  forall_part_iff

theorem parameterFree_leaf (h : ∀ x, ¬ IsParameter x e) (hleaf : e.children = []) :
    e.ParameterFree :=
  parameterFree_iff.mpr ⟨h, by simp [hleaf]⟩

theorem isParameter_mapChildren {f : HostExpr → HostExpr} :
    IsParameter x (e.mapChildren f) ↔ IsParameter x e := by
  cases e <;> simp [IsParameter, mapChildren]

theorem declared_mapChildren (f : HostExpr → HostExpr) (e : HostExpr) :
    (e.mapChildren f).declared = e.declared := by
  cases e <;> rfl

/-! ## Replacement in one expression -/

theorem replaceAll_eq_map (es : List HostExpr) (x : String) (r : HostExpr) :
    replaceAll es x r = es.map fun c => c.replace x r := by
  induction es with
  | nil => rfl
  | cons e rest ih => rw [replaceAll, ih, List.map_cons]

theorem replaceBindings_eq_map (bindings : List (String × HostExpr)) (x : String) (r : HostExpr) :
    replaceBindings bindings x r
      = bindings.map fun binding => (binding.1, binding.2.replace x r) := by
  induction bindings with
  | nil => rfl
  | cons binding rest ih => rw [replaceBindings, ih, List.map_cons]

theorem replace_isParameter (h : IsParameter x e) : e.replace x r = r := by
  obtain ⟨type, rfl⟩ := h
  rw [replace, if_pos rfl]

theorem replace_of_declared (h : x ∈ e.declared) : e.replace x r = e := by
  cases e with
  | lambda parameters body => exact if_pos h
  | _ => cases h

/-- Replacement goes on in the direct parts. -/
theorem replace_of_not_declared (hparameter : ¬ IsParameter x e) (hdeclared : x ∉ e.declared) :
    e.replace x r = e.mapChildren fun c => c.replace x r := by
  cases e with
  | parameter n type =>
    have hne : n ≠ x := fun h => hparameter ⟨type, h ▸ rfl⟩
    rw [replace, if_neg hne, mapChildren]
  | lambda parameters body => exact if_neg hdeclared
  | _ => simp only [replace, mapChildren, replaceAll_eq_map, replaceBindings_eq_map]

theorem declared_replace (h : ¬ IsParameter x e) : (e.replace x r).declared = e.declared := by
  by_cases hdeclared : x ∈ e.declared
  · rw [replace_of_declared hdeclared]
  · rw [replace_of_not_declared h hdeclared, declared_mapChildren]

/-! ## Laws of replacement -/

/-- **Replacement takes a name away and leaves all others.** -/
theorem free_replace_iff (hr : r.ParameterFree) (e : HostExpr) :
    Free y (e.replace x r) ↔ Free y e ∧ y ≠ x := by
  induction e using induction_on_children with
  | step e ih =>
    -- the parameter itself, a lambda that hides it, and everything else
    by_cases hparameter : IsParameter x e
    · rw [replace_isParameter hparameter, hparameter.free_iff]
      exact iff_of_false hr.not_free fun ⟨heq, hne⟩ => hne heq
    by_cases hdeclared : x ∈ e.declared
    · rw [replace_of_declared hdeclared]
      exact ⟨fun h => ⟨h, fun heq => not_free_of_declared hdeclared (heq ▸ h)⟩, And.left⟩
    rw [replace_of_not_declared hparameter hdeclared, free_iff, isParameter_mapChildren,
      declared_mapChildren, children_mapChildren, free_iff]
    constructor
    · rintro (h | ⟨hnot, _, hmem, hfree⟩)
      · exact ⟨.inl h, fun heq => hparameter (heq ▸ h)⟩
      · obtain ⟨c, hc, rfl⟩ := List.mem_map.mp hmem
        obtain ⟨hfree, hne⟩ := (ih c hc).mp hfree
        exact ⟨.inr ⟨hnot, c, hc, hfree⟩, hne⟩
    · rintro ⟨h | ⟨hnot, c, hc, hfree⟩, hne⟩
      · exact .inl h
      · exact .inr ⟨hnot, _, List.mem_map_of_mem hc, (ih c hc).mpr ⟨hfree, hne⟩⟩

/-- Without free occurrences there is nothing to replace. -/
theorem replace_of_not_free (h : ¬ Free x e) : e.replace x r = e := by
  induction e using induction_on_children with
  | step e ih =>
    by_cases hdeclared : x ∈ e.declared
    · exact replace_of_declared hdeclared
    · have hparameter : ¬ IsParameter x e := fun hp => h (free_iff.mpr (.inl hp))
      rw [replace_of_not_declared hparameter hdeclared]
      exact mapChildren_eq_self fun c hc => ih c hc fun hfree => h (.inside hdeclared hc hfree)

/-- **An expression is changed exactly if the name is free in it.** -/
theorem replace_eq_self_iff (hr : r.ParameterFree) : e.replace x r = e ↔ ¬ Free x e := by
  refine ⟨fun heq hfree => ?_, replace_of_not_free⟩
  rw [← heq] at hfree
  exact ((free_replace_iff hr e).mp hfree).2 rfl

theorem replace_comm_of_isParameter (hxy : x ≠ y) (hr : r.ParameterFree) (h : IsParameter x e) :
    (e.replace x r).replace y s = (e.replace y s).replace x r := by
  have hother : ¬ Free y e := fun hfree => hxy (h.free_iff.mp hfree).symm
  rw [replace_isParameter h, replace_of_not_free hr.not_free, replace_of_not_free hother,
    replace_isParameter h]

theorem replace_comm_of_declared (hy : ¬ IsParameter y e) (h : x ∈ e.declared) :
    (e.replace x r).replace y s = (e.replace y s).replace x r := by
  have hstill : x ∈ (e.replace y s).declared := by rwa [declared_replace hy]
  rw [replace_of_declared h, replace_of_declared hstill]

/-- **Replacements for different names commute.** -/
theorem replace_comm (hxy : x ≠ y) (hr : r.ParameterFree) (hs : s.ParameterFree) (e : HostExpr) :
    (e.replace x r).replace y s = (e.replace y s).replace x r := by
  induction e using induction_on_children with
  | step e ih =>
    -- where one of the two stops, the other one has nothing to do there or does it either way
    by_cases hx : IsParameter x e
    · exact replace_comm_of_isParameter hxy hr hx
    by_cases hy : IsParameter y e
    · exact (replace_comm_of_isParameter hxy.symm hs hy).symm
    by_cases hdx : x ∈ e.declared
    · exact replace_comm_of_declared hy hdx
    by_cases hdy : y ∈ e.declared
    · exact (replace_comm_of_declared hx hdy).symm
    have hx' : ¬ IsParameter x (e.mapChildren fun c => c.replace y s) := by
      rwa [isParameter_mapChildren]
    have hy' : ¬ IsParameter y (e.mapChildren fun c => c.replace x r) := by
      rwa [isParameter_mapChildren]
    calc (e.replace x r).replace y s
        = (e.mapChildren fun c => c.replace x r).replace y s := by
          rw [replace_of_not_declared hx hdx]
      _ = e.mapChildren fun c => (c.replace x r).replace y s := by
          rw [replace_of_not_declared hy' (by rwa [declared_mapChildren]), mapChildren_mapChildren]
      _ = e.mapChildren fun c => (c.replace y s).replace x r := mapChildren_congr ih
      _ = (e.mapChildren fun c => c.replace y s).replace x r := by
          rw [replace_of_not_declared hx' (by rwa [declared_mapChildren]), mapChildren_mapChildren]
      _ = (e.replace y s).replace x r := by rw [replace_of_not_declared hy hdy]

end HostExpr

/-! ## Lambdas over a query -/

/-- **A query replaces the parameters of lambdas by an expression without parameters**, whatever
operators were applied to it. -/
theorem ShapedQuery.Operated.shaper_parameterFree {t : Translator} {entityType : String}
    {created query : ShapedQuery} (hcreate : ShapedQuery.create t entityType = .ok created)
    (h : ShapedQuery.Operated t created query) : query.shaper.ParameterFree := by
  obtain ⟨found, collection, _, rfl⟩ := ShapedQuery.create_eq_ok hcreate
  rw [h.sameStart.shaper]
  have hbuffer : (HostExpr.projected .root (.entity found.name)).ParameterFree :=
    HostExpr.parameterFree_leaf (by simp [HostExpr.IsParameter]) rfl
  exact HostExpr.parameterFree_iff.mpr
    ⟨by simp [HostExpr.IsParameter], by simpa [HostExpr.children] using hbuffer⟩

/-- **Replacing parameters is substitution.** The replaced name is free no more and all others are
free as before; exactly the expressions in which it is free are changed; replacements for
different names commute; and apart from the parameter itself and the lambdas that hide it, every
expression is kept with its direct parts replaced in their places, so that arguments, assignments
and items stay as many as they were and in the same order. Queries replace the parameter of a
lambda by their shaper, which has no parameters. -/
theorem replace_substitutes {x y : String} (hxy : x ≠ y) {r s : HostExpr}
    (hr : r.ParameterFree) (hs : s.ParameterFree) (e : HostExpr) :
    (∀ name, HostExpr.Free name (e.replace x r) ↔ HostExpr.Free name e ∧ name ≠ x)
      ∧ (e.replace x r = e ↔ ¬ HostExpr.Free x e)
      ∧ (e.replace x r).replace y s = (e.replace y s).replace x r
      ∧ (x ∈ e.declared → ¬ HostExpr.Free x e)
      ∧ (¬ HostExpr.IsParameter x e → x ∉ e.declared →
        e.replace x r = e.mapChildren fun c => c.replace x r)
      ∧ ∀ t entityType created query type, ShapedQuery.create t entityType = .ok created →
        ShapedQuery.Operated t created query → query.shaper.ParameterFree
          ∧ query.translateLambda t (.lambda [(x, type)] e)
            = query.translateAs t (.lambda [(x, type)] e) (e.replace x query.shaper) :=
  ⟨fun _ => HostExpr.free_replace_iff hr e, HostExpr.replace_eq_self_iff hr,
    HostExpr.replace_comm hxy hr hs e, HostExpr.not_free_of_declared,
    HostExpr.replace_of_not_declared,
    fun _ _ _ _ _ hcreate hquery => ⟨hquery.shaper_parameterFree hcreate, rfl⟩⟩

/-- Whether a person is of a certain rank, which is told once more by a lambda with a parameter of
the same name as the person. -/
def isOfRank : HostExpr :=
  .operate .andAlso
    (.operate .equal (.member (.parameter "p" (.entity "Person")) "Rank" .byte)
      (.parameter "rank" .byte))
    (.invoke
      (.lambda [("p", .byte)]
        (.operate .equal (.parameter "p" .byte) (.parameter "rank" .byte)))
      [.member (.parameter "p" (.entity "Person")) "Rank" .byte] .bool)

theorem replace_substitutes_isOfRank :
    ("p" ≠ "rank" ∧ allPeople.shaper.ParameterFree
      ∧ (HostExpr.constant (.int 1) .byte).ParameterFree)
      ∧ HostExpr.Free "p" isOfRank
      ∧ isOfRank.replace "p" allPeople.shaper ≠ isOfRank
      ∧ ¬ HostExpr.Free "p" (isOfRank.replace "p" allPeople.shaper)
      ∧ (isOfRank.replace "p" allPeople.shaper).replace "rank" (.constant (.int 1) .byte)
        = (isOfRank.replace "rank" (.constant (.int 1) .byte)).replace "p" allPeople.shaper := by
  have hcreate : ShapedQuery.create { schema := people } "Person" = .ok allPeople := rfl
  have hshaper := ShapedQuery.Operated.created.shaper_parameterFree hcreate
  have hone : (HostExpr.constant (.int 1) .byte).ParameterFree :=
    HostExpr.parameterFree_leaf (by simp [HostExpr.IsParameter]) rfl
  have hfree : HostExpr.Free "p" isOfRank :=
    .inside nofun (.head _) (.inside nofun (.head _) (.inside nofun (.head _) (.parameter _)))
  obtain ⟨hnames, hsame, hcomm, _⟩ :=
    replace_substitutes (by decide : "p" ≠ "rank") hshaper hone isOfRank
  exact ⟨⟨by decide, hshaper, hone⟩, hfree, fun heq => hsame.mp heq hfree,
    fun h => ((hnames "p").mp h).2 rfl, hcomm⟩

end Odm
