import Mathlib.Data.List.Basic
import Odm.Proofs.Schema.Hierarchy
import Odm.Proofs.Table

/-!
# Inheritance

Types inherit along their bases. `DerivesFrom` says so one base at a time, with no walk and no
bound on the number of steps. In a catalog with one type of each name whose hierarchies end in
roots, both walks of a catalog agree with it: `chain` lists the types that a type derives from,
and `descendants`, level by level, those that derive from a type. Where types are linked, `derived`
and `isPolymorphic` say the same as `descendants`.

For the walk upwards the bound on its steps never matters, because a chain that ends in a root
ends before the bound. That gives the chain of a type from the chain of its base. The walk
downwards needs as many levels as chains are long, and no chain is longer than the catalog.
-/

namespace Odm

namespace Catalog

variable {c c' : Catalog} {t u v b : EntityType}

/-! ## One type of each name -/

/-- The names of the types ascend strictly, so there is one type of each name. -/
def Sorted (c : Catalog) : Prop := c.types.Pairwise fun t u => t.name < u.name

instance (c : Catalog) : Decidable c.Sorted :=
  inferInstanceAs (Decidable (c.types.Pairwise fun t u => t.name < u.name))

/-- The types of a list under their names. -/
def byName (types : List EntityType) : Table String EntityType :=
  types.map fun t => (t.name, t)

theorem sorted_iff_byName : c.Sorted ↔ (byName c.types).Sorted := by
  rw [Sorted, Table.Sorted, byName, List.pairwise_map]

theorem byName_insertType (t : EntityType) (types : List EntityType) :
    byName (insertType t types) = (byName types).insert t.name t := by
  induction types with
  | nil => rfl
  | cons u rest ih =>
    simp only [byName, insertType, List.map_cons, Table.insert] at ih ⊢
    split
    · rfl
    · split
      · rfl
      · rw [List.map_cons, ih]

/-- **Adding a type keeps the order of the names.** -/
theorem Sorted.add (h : c.Sorted) (t : EntityType) : (c.add t).Sorted := by
  rw [sorted_iff_byName, Catalog.add, byName_insertType]
  exact Table.sorted_insert (sorted_iff_byName.mp h) _ _

theorem sorted_of_skeleton (h : c'.skeleton = c.skeleton) (hc : c.Sorted) : c'.Sorted := by
  have hnames : ∀ d : Catalog, d.Sorted ↔ d.skeleton.Pairwise fun x y => x.1 < y.1 := by
    intro d
    rw [Sorted, skeleton, List.pairwise_map]
    rfl
  rw [hnames, h, ← hnames]
  exact hc

theorem get?_byName (types : List EntityType) (name : String) :
    (byName types).get? name = types.find? (·.name = name) := by
  induction types with
  | nil => rfl
  | cons t rest ih =>
    rw [byName, List.map_cons, Table.get?_cons, List.find?_cons]
    split
    · rename_i hname
      rw [decide_eq_true hname]
    · rename_i hname
      rw [decide_eq_false hname]
      exact ih

/-- A type of the catalog is found by its name. -/
theorem Sorted.find?_of_mem (hc : c.Sorted) (ht : t ∈ c.types) : c.find? t.name = some t := by
  rw [find?, ← get?_byName]
  exact Table.get?_of_mem (sorted_iff_byName.mp hc) (List.mem_map_of_mem ht)

theorem find?_mem {name : String} (h : c.find? name = some t) : t ∈ c.types :=
  List.mem_of_find?_eq_some h

/-! ## Types below a type -/

/-- A type derives from `t` if it is `t` or its base derives from `t`. -/
inductive DerivesFrom (c : Catalog) (t : EntityType) : EntityType → Prop where
  | self : t ∈ c.types → DerivesFrom c t t
  | base {b u : EntityType} :
    DerivesFrom c t b → u ∈ c.types → u.base = some b.name → DerivesFrom c t u

theorem DerivesFrom.mem (h : c.DerivesFrom t u) : u ∈ c.types := by
  cases h <;> assumption

theorem DerivesFrom.mem_left (h : c.DerivesFrom t u) : t ∈ c.types := by
  induction h with
  | self ht => exact ht
  | base _ _ _ ih => exact ih

theorem DerivesFrom.trans (h : c.DerivesFrom t u) (h' : c.DerivesFrom u v) :
    c.DerivesFrom t v := by
  induction h' with
  | self _ => exact h
  | base _ hv hbase ih => exact .base ih hv hbase

/-- Below a type there is only that type and derived ones. -/
theorem DerivesFrom.eq_or_isDerived (h : c.DerivesFrom t u) : u = t ∨ u.isDerived := by
  cases h with
  | self => exact .inl rfl
  | base _ _ hbase => exact .inr (by rw [EntityType.isDerived, hbase]; rfl)

/-! ## Chains -/

theorem length_climb_le (steps : Nat) : ∀ name, (c.climb steps name).length ≤ steps := by
  induction steps with
  | zero => exact fun _ => Nat.le_refl 0
  | succ steps ih =>
    intro name
    rw [climb]
    split
    · exact Nat.zero_le _
    · split
      · exact Nat.succ_le_succ (Nat.zero_le _)
      · exact Nat.succ_le_succ (ih _)

/-- A climb that has reached a root goes no further. -/
theorem climb_succ_of_root {root : EntityType} (hroot : root.base = none) {steps : Nat} :
    ∀ {name : String}, (c.climb steps name).getLast? = some root →
      c.climb (steps + 1) name = c.climb steps name := by
  induction steps with
  | zero => intro name h; cases h
  | succ steps ih =>
    intro name h
    rw [climb] at h
    rw [climb, climb.eq_2 c name steps]
    split
    · rfl
    · rename_i u hu
      rw [hu] at h
      dsimp only at h
      split
      · rfl
      · rename_i base hbase
        rw [hbase] at h
        dsimp only at h
        rw [List.getLast?_cons] at h
        cases hlast : (c.climb steps base).getLast? with
        | none =>
          -- the climb would end in `u`, which is no root
          rw [hlast] at h
          have hu : u = root := Option.some.inj h
          rw [hu, hroot] at hbase
          cases hbase
        | some last =>
          rw [hlast] at h
          cases h
          rw [ih hlast]

theorem chain_of_root {name : String} (ht : c.find? name = some t) (hroot : t.base = none) :
    c.chain name = [t] := by
  have hmem := find?_mem ht
  rw [chain]
  cases hl : c.types.length with
  | zero => rw [List.length_eq_zero_iff.mp hl] at hmem; cases hmem
  | succ n =>
    rw [climb, ht]
    dsimp only
    rw [hroot]

/-- **The chain of a derived type** is the type and the chain of its base. -/
theorem chain_of_base (hc : c.Rooted) {name base : String} (hu : c.find? name = some u)
    (hbase : u.base = some base) :
    ∃ b, c.find? base = some b ∧ c.chain name = u :: c.chain base := by
  have hmem := find?_mem hu
  cases hl : c.types.length with
  | zero => rw [List.length_eq_zero_iff.mp hl] at hmem; cases hmem
  | succ n =>
    have hchain : c.chain name = u :: c.climb n base := by
      rw [chain, hl, climb, hu]
      dsimp only
      rw [hbase]
    -- the chain ends in a root, and `u` is none, so the climb from the base ends there
    have hlast : ∃ root, (c.climb n base).getLast? = some root ∧ root.base = none := by
      cases hlast : (c.climb n base).getLast? with
      | none =>
        have hself : c.root? name = some u := by rw [root?, hchain, List.getLast?_cons, hlast]; rfl
        rw [hc name u hself] at hbase
        cases hbase
      | some root =>
        refine ⟨root, rfl, hc name root ?_⟩
        rw [root?, hchain, List.getLast?_cons, hlast]
        rfl
    obtain ⟨root, hlast, hroot⟩ := hlast
    have hbasechain : c.chain base = c.climb n base := by
      rw [chain, hl, climb_succ_of_root hroot hlast]
    refine (Option.isSome_iff_exists.mp ?_).imp fun b hb => ⟨hb, by rw [hchain, hbasechain]⟩
    cases n with
    | zero => cases hlast
    | succ n =>
      cases hf : c.find? base with
      | none => rw [climb, hf] at hlast; cases hlast
      | some b => rfl

theorem chain_ne_nil (hc : c.Rooted) {name : String} (ht : c.find? name = some t) :
    c.chain name ≠ [] := by
  cases hbase : t.base with
  | none =>
    rw [chain_of_root ht hbase]
    exact List.cons_ne_nil _ _
  | some base =>
    obtain ⟨_, _, hchain⟩ := chain_of_base hc ht hbase
    rw [hchain]
    exact List.cons_ne_nil _ _

/-- What holds of roots, and of a type if it holds of its base, holds of all types. -/
theorem Rooted.induction (hc : c.Rooted) {motive : EntityType → Prop}
    (root : ∀ t, c.find? t.name = some t → t.base = none → motive t)
    (derived : ∀ u b, c.find? u.name = some u → u.base = some b.name →
      c.find? b.name = some b → motive b → motive u) :
    ∀ {t : EntityType}, c.find? t.name = some t → motive t := by
  intro t ht
  -- the induction is on the length of the chain, which is shorter for the base
  obtain ⟨n, hlength⟩ : ∃ n, (c.chain t.name).length ≤ n := ⟨_, Nat.le_refl _⟩
  induction n generalizing t with
  | zero =>
    have hself := chain_ne_nil hc ht
    rw [List.length_eq_zero_iff.mp (Nat.le_zero.mp hlength)] at hself
    exact absurd rfl hself
  | succ n ih =>
    cases hbase : t.base with
    | none => exact root t ht hbase
    | some base =>
      obtain ⟨b, hb, hchain⟩ := chain_of_base hc ht hbase
      cases find?_name hb
      rw [hchain, List.length_cons] at hlength
      exact derived t b ht hbase hb (ih hb (Nat.le_of_succ_le_succ hlength))

theorem chain_eq_cons (hs : c.Sorted) (hc : c.Rooted) (hu : u ∈ c.types)
    (hbase : u.base = some b.name) : c.chain u.name = u :: c.chain b.name := by
  obtain ⟨_, _, hchain⟩ := chain_of_base hc (hs.find?_of_mem hu) hbase
  exact hchain

/-- **The chain of a type** lists the types that it derives from. -/
theorem mem_chain_iff (hs : c.Sorted) (hc : c.Rooted) (hu : u ∈ c.types) :
    t ∈ c.chain u.name ↔ c.DerivesFrom t u := by
  refine hc.induction (motive := fun u => t ∈ c.chain u.name ↔ c.DerivesFrom t u) ?_ ?_
    (hs.find?_of_mem hu)
  · intro r hr hroot
    rw [chain_of_root hr hroot, List.mem_singleton]
    constructor
    · rintro rfl
      exact .self (find?_mem hr)
    · -- a root derives from itself only, since it has no base
      intro h
      cases h with
      | self => rfl
      | base _ _ hbase => rw [hroot] at hbase; cases hbase
  · intro u b hu hbase hb ih
    rw [chain_eq_cons hs hc (find?_mem hu) hbase, List.mem_cons, ih]
    constructor
    · rintro (rfl | h)
      · exact .self (find?_mem hu)
      · exact .base h (find?_mem hu) hbase
    · intro h
      cases h with
      | self => exact .inl rfl
      | @base b' _ h _ hbase' =>
        -- the base is found by its name, so the two bases are one
        rw [hbase] at hbase'
        have hb' := hs.find?_of_mem h.mem
        rw [← Option.some.inj hbase', hb] at hb'
        cases hb'
        exact .inr h

/-- A type that is assignable to a name derives from the type of that name. -/
theorem exists_of_isAssignable (hs : c.Sorted) (hc : c.Rooted) (hu : u ∈ c.types)
    {name : String} (h : c.isAssignable name u.name) :
    ∃ t, c.find? name = some t ∧ c.DerivesFrom t u := by
  obtain ⟨t, ht, hname⟩ := List.any_eq_true.mp h
  refine ⟨t, ?_, (mem_chain_iff hs hc hu).mp ht⟩
  rw [← of_decide_eq_true hname]
  exact find?_of_mem_climb ht

theorem isAssignable_iff (hs : c.Sorted) (hc : c.Rooted) (ht : t ∈ c.types)
    (hu : u ∈ c.types) : c.isAssignable t.name u.name ↔ c.DerivesFrom t u := by
  constructor
  · intro h
    obtain ⟨t', ht', hderives⟩ := exists_of_isAssignable hs hc hu h
    cases (hs.find?_of_mem ht).symm.trans ht'
    exact hderives
  · intro h
    exact List.any_eq_true.mpr ⟨t, (mem_chain_iff hs hc hu).mpr h, decide_eq_true rfl⟩

theorem DerivesFrom.length_le (hs : c.Sorted) (hc : c.Rooted) (h : c.DerivesFrom t u) :
    (c.chain t.name).length ≤ (c.chain u.name).length := by
  induction h with
  | self => exact Nat.le_refl _
  | base hb hu hbase ih =>
    rw [chain_eq_cons hs hc hu hbase, List.length_cons]
    exact Nat.le_succ_of_le ih

theorem mem_children_iff : u ∈ c.children t.name ↔ u ∈ c.types ∧ u.base = some t.name := by
  rw [children, List.mem_filter, decide_eq_true_iff]

theorem exists_of_mem_descend {depth : Nat} : ∀ {level : List EntityType},
    (∀ t ∈ level, t ∈ c.types) → u ∈ c.descend depth level →
    ∃ t ∈ level, c.DerivesFrom t u := by
  induction depth with
  | zero => intro level _ h; cases h
  | succ depth ih =>
    intro level hlevel h
    rcases List.mem_append.mp h with h | h
    · exact ⟨u, h, .self (hlevel u h)⟩
    · -- the next level has children of this one, which are types of the catalog again
      have hnext : ∀ x ∈ level.flatMap fun t => c.children t.name, x ∈ c.types := by
        intro x hx
        obtain ⟨t, _, hx⟩ := List.mem_flatMap.mp hx
        exact (mem_children_iff.mp hx).1
      obtain ⟨b, hb, hderives⟩ := ih hnext h
      obtain ⟨t, ht, hb⟩ := List.mem_flatMap.mp hb
      obtain ⟨hmem, hbase⟩ := mem_children_iff.mp hb
      exact ⟨t, ht, .trans (.base (.self (hlevel t ht)) hmem hbase) hderives⟩

theorem child_mem_descend {depth : Nat} : ∀ {level : List EntityType},
    b ∈ c.descend depth level → u ∈ c.children b.name → u ∈ c.descend (depth + 1) level := by
  induction depth with
  | zero => intro level h; cases h
  | succ depth ih =>
    intro level h hu
    refine List.mem_append_right _ ?_
    rcases List.mem_append.mp h with h | h
    · exact List.mem_append_left _ (List.mem_flatMap.mpr ⟨b, h, hu⟩)
    · exact ih h hu

/-- A type is found as many levels down as its chain is longer. -/
theorem mem_descend_of_derivesFrom (hs : c.Sorted) (hc : c.Rooted) {level : List EntityType}
    (ht : t ∈ level) (h : c.DerivesFrom t u) :
    ∀ {depth : Nat}, (c.chain u.name).length < (c.chain t.name).length + depth →
      u ∈ c.descend depth level := by
  induction h with
  | self =>
    intro depth hlt
    -- no depth, but then a chain would be shorter than itself
    cases depth with
    | zero => omega
    | succ depth => exact List.mem_append_left _ ht
  | base hb hu hbase ih =>
    intro depth hlt
    -- the base is one level further up, and a chain that is shorter by one
    have hle := hb.length_le hs hc
    rw [chain_eq_cons hs hc hu hbase, List.length_cons] at hlt
    cases depth with
    | zero => omega
    | succ depth =>
      exact child_mem_descend (ih (by omega)) (mem_children_iff.mpr ⟨hu, hbase⟩)

theorem cons_descendants (c : Catalog) (t : EntityType) :
    t :: c.descendants t.name = c.descend (c.types.length + 1) [t] := by
  rw [descendants, descend, List.flatMap_singleton]
  rfl

/-- **A type and its descendants** are the types that derive from it. -/
theorem mem_cons_descendants_iff (hs : c.Sorted) (hc : c.Rooted) (ht : t ∈ c.types) :
    u ∈ t :: c.descendants t.name ↔ c.DerivesFrom t u := by
  rw [cons_descendants]
  constructor
  · intro h
    obtain ⟨x, hx, hderives⟩ := exists_of_mem_descend (by simpa using ht) h
    cases List.mem_singleton.mp hx
    exact hderives
  · intro h
    refine mem_descend_of_derivesFrom hs hc (List.mem_singleton_self t) h ?_
    have hu : (c.chain u.name).length ≤ c.types.length := length_climb_le _ _
    omega

/-! ## Derived types -/

/-- **Links lead to what is below**: no type is missing, and none is there that is not below. -/
theorem Linked.derived_eq (hl : c.Linked) (hs : c.Sorted) (ht : t ∈ c.types) :
    c.derived t.name = c.descendants t.name := by
  have hknown : ∀ u ∈ c.descendants t.name, c.find? u.name = some u := by
    intro u hu
    obtain ⟨_, _, hderives⟩ := exists_of_mem_descend (fun v hv => (mem_children_iff.mp hv).1) hu
    exact hs.find?_of_mem hderives.mem
  rw [derived, hs.find?_of_mem ht]
  dsimp only
  rw [hl t ht, List.filterMap_map]
  exact (List.filterMap_congr hknown).trans List.filterMap_some

/-- **A type and its derived types** are the types that derive from it. -/
theorem mem_cons_derived_iff (hs : c.Sorted) (hc : c.Rooted) (hl : c.Linked) (ht : t ∈ c.types) :
    u ∈ t :: c.derived t.name ↔ c.DerivesFrom t u := by
  rw [hl.derived_eq hs ht, mem_cons_descendants_iff hs hc ht]

/-- A type is polymorphic if it has a base or something is below it. -/
theorem Linked.isPolymorphic_iff (hl : c.Linked) (ht : t ∈ c.types) :
    c.isPolymorphic t ↔ t.isDerived ∨ ∃ u, u ∈ c.descendants t.name := by
  rw [isPolymorphic, Bool.or_eq_true, hl t ht, List.isEmpty_map, Bool.not_eq_true',
    List.isEmpty_eq_false_iff_exists_mem]

end Catalog

/-! ## Finished schemas -/

namespace Model

variable {m : Model} {s : Schema}

theorem complete_sorted {steps : List CatalogStep} (hm : m.Sorted)
    (hsteps : ∀ step ∈ steps, step.KeepsLines) (h : m.complete steps = .ok s) : s.Sorted :=
  Catalog.sorted_of_skeleton (complete_skeleton hsteps h) hm

theorem finish_sorted {conventions : List Convention} (hm : m.Sorted)
    (h : m.finish conventions = .ok s) : s.Sorted :=
  complete_sorted hm (fun _ => Convention.keepsLines_of_mem) h

end Model

end Odm
