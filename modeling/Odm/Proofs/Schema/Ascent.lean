import Odm.Proofs.Schema.Inheritance

/-!
# Walks with no bound

The walks of a catalog up its base types stop after as many steps as there are types. Here the
same walks go from a type to its base for as long as there is one. `Ascent` lists what it passes
on the way to the top, and `Search` stops at the first type that has what it looks for. They are
relations and not functions, because up a circle of base types neither comes to an end.

In a sorted catalog whose hierarchies end in roots both end for every type, with what the bounded
walks have found.
-/

namespace Odm.Catalog

variable {c : Catalog} {t u v b : EntityType} {β : Type}

/-- The type that a type derives from directly. -/
def base? (c : Catalog) (t : EntityType) : Option EntityType := t.base.bind c.find?

theorem base?_eq_some (hs : c.Sorted) :
    c.base? t = some b ↔ b ∈ c.types ∧ t.base = some b.name := by
  rw [base?, Option.bind_eq_some_iff]
  constructor
  · rintro ⟨base, hbase, hfind⟩
    exact ⟨find?_mem hfind, by rw [hbase, find?_name hfind]⟩
  · rintro ⟨hb, hbase⟩
    exact ⟨b.name, hbase, hs.find?_of_mem hb⟩

/-- A type has one direct base. -/
theorem Sorted.base_unique (hs : c.Sorted) (hu : u ∈ c.types) (hv : v ∈ c.types)
    (hbase : t.base = some u.name) (hbase' : t.base = some v.name) : u = v := by
  have hfound := (base?_eq_some hs).mpr ⟨hu, hbase⟩
  rw [(base?_eq_some hs).mpr ⟨hv, hbase'⟩] at hfound
  exact (Option.some.inj hfound).symm

/-! ## The walks -/

/-- Going up from a type to the top passes these types. -/
inductive Ascent (c : Catalog) : EntityType → List EntityType → Prop where
  | top {t : EntityType} : c.base? t = none → Ascent c t [t]
  | step {t b : EntityType} {path : List EntityType} :
    c.base? t = some b → Ascent c b path → Ascent c t (t :: path)

/-- Going up from a type until `f` finds something ends with this result. -/
inductive Search (c : Catalog) (f : EntityType → Option β) : EntityType → Option β → Prop where
  | found {t : EntityType} {y : β} : f t = some y → Search c f t (some y)
  | top {t : EntityType} : f t = none → c.base? t = none → Search c f t none
  | step {t b : EntityType} {r : Option β} :
    f t = none → c.base? t = some b → Search c f b r → Search c f t r

/-- There is one way up. -/
theorem Ascent.unique {path path' : List EntityType} (h : c.Ascent t path)
    (h' : c.Ascent t path') : path = path' := by
  induction h generalizing path' with
  | top htop =>
    cases h' with
    | top _ => rfl
    | step hbase _ => rw [htop] at hbase; cases hbase
  | step hbase _ ih =>
    cases h' with
    | top htop => rw [htop] at hbase; cases hbase
    | step hbase' hpath' =>
      have hsame := hbase.symm.trans hbase'
      cases hsame
      rw [ih hpath']

theorem Search.unique {f : EntityType → Option β} {r r' : Option β} (h : c.Search f t r)
    (h' : c.Search f t r') : r = r' := by
  -- `f` and the base decide which rule applies, so two searches take the same steps
  induction h with
  | found hy =>
    cases h' with
    | found hy' => exact hy.symm.trans hy'
    | top hnone _ => rw [hy] at hnone; cases hnone
    | step hnone _ _ => rw [hy] at hnone; cases hnone
  | top hnone htop =>
    cases h' with
    | found hy => rw [hnone] at hy; cases hy
    | top _ _ => rfl
    | step _ hbase _ => rw [htop] at hbase; cases hbase
  | step hnone hbase _ ih =>
    cases h' with
    | found hy => rw [hnone] at hy; cases hy
    | top _ htop => rw [htop] at hbase; cases hbase
    | step _ hbase' hrest =>
      have hsame := hbase.symm.trans hbase'
      cases hsame
      exact ih hrest

/-- Of two types that a type derives from, one derives from the other. -/
theorem DerivesFrom.comparable (hs : c.Sorted) (h : c.DerivesFrom u t)
    (h' : c.DerivesFrom v t) : c.DerivesFrom u v ∨ c.DerivesFrom v u := by
  induction h with
  | self _ => exact .inr h'
  | @base b t hb ht hbase ih =>
    cases h' with
    | self _ => exact .inl (.base hb ht hbase)
    | @base b' _ hb' _ hbase' =>
      cases hs.base_unique hb.mem hb'.mem hbase hbase'
      exact ih hb'

end Odm.Catalog
