import Mathlib.Data.List.Nodup
import Odm.Proofs.Schema.Ascent
import Odm.Proofs.Schema.Inheritance

/-!
# Lines of inheritance

A schema answers questions about inheritance in two directions. Upwards it goes from a type to its
base, one at a time; downwards it lists everything below a type, level by level. In a finished
schema the two directions give one relation, which is a partial order, and a forest: what a type
derives from is in a line.

The invariant of the list is that its levels lie at one distance each: all types of a level have
chains of one length, and the chains of the next level are longer by one. So no type comes twice,
and none comes before its base. The same invariant shows that a queue, to whose end the children of
each new type go, is explored in just this order.
-/

namespace Odm

namespace Catalog

variable {c : Catalog} {a b t u v : EntityType} {n : Nat} {level : List EntityType}

/-! ## The order of types -/

theorem DerivesFrom.length_lt (hs : c.Sorted) (hc : c.Rooted) (h : c.DerivesFrom t u)
    (hne : u ≠ t) : (c.chain t.name).length < (c.chain u.name).length := by
  cases h with
  | self _ => exact absurd rfl hne
  | @base b _ hb hu hbase =>
    have hle := hb.length_le hs hc
    rw [chain_eq_cons hs hc hu hbase, List.length_cons]
    omega

theorem DerivesFrom.antisymm (hs : c.Sorted) (hc : c.Rooted) (h : c.DerivesFrom t u)
    (h' : c.DerivesFrom u t) : t = u := by
  by_contra hne
  have hlt := h.length_lt hs hc (Ne.symm hne)
  have hle := h'.length_le hs hc
  omega

/-- How many steps up from the type `derived` the type `base` is. -/
def distance (c : Catalog) (base derived : String) : Nat :=
  (c.chain derived).findIdx (·.name = base)

/-- A chain begins with its type. -/
theorem exists_chain_eq_cons (hs : c.Sorted) (hc : c.Rooted) (ht : t ∈ c.types) :
    ∃ rest, c.chain t.name = t :: rest := by
  cases hbase : t.base with
  | none => exact ⟨[], chain_of_root (hs.find?_of_mem ht) hbase⟩
  | some base =>
    obtain ⟨b, _, hchain⟩ := chain_of_base hc (hs.find?_of_mem ht) hbase
    exact ⟨c.chain base, hchain⟩

theorem distance_self (hs : c.Sorted) (hc : c.Rooted) (ht : t ∈ c.types) :
    c.distance t.name t.name = 0 := by
  obtain ⟨rest, hchain⟩ := exists_chain_eq_cons hs hc ht
  rw [distance, hchain, List.findIdx_cons, decide_eq_true rfl]
  rfl

theorem distance_of_base (hs : c.Sorted) (hc : c.Rooted) (hu : u ∈ c.types)
    (hbase : u.base = some b.name) (hne : u.name ≠ t.name) :
    c.distance t.name u.name = c.distance t.name b.name + 1 := by
  rw [distance, chain_eq_cons hs hc hu hbase, List.findIdx_cons, decide_eq_false hne]
  rfl

/-- The chain of a derived type is longer by its distance. -/
theorem DerivesFrom.length_chain (hs : c.Sorted) (hc : c.Rooted) (h : c.DerivesFrom t u) :
    (c.chain u.name).length = (c.chain t.name).length + c.distance t.name u.name := by
  induction h with
  | self ht => rw [distance_self hs hc ht, Nat.add_zero]
  | @base b u hb hu hbase ih =>
    have hcons := chain_eq_cons hs hc hu hbase
    have hle := hb.length_le hs hc
    have hne : u.name ≠ t.name := by
      intro hname
      rw [← hname, hcons, List.length_cons] at hle
      omega
    rw [hcons, List.length_cons, ih, distance_of_base hs hc hu hbase hne]
    omega

/-! ## Levels -/

/-- Types that are all equally far below their roots. -/
structure IsLevel (c : Catalog) (n : Nat) (level : List EntityType) : Prop where
  nodup : level.Nodup
  known : ∀ t ∈ level, t ∈ c.types
  length : ∀ t ∈ level, (c.chain t.name).length = n

theorem Sorted.nodup (hs : c.Sorted) : c.types.Nodup := by
  refine hs.imp ?_
  rintro t u hlt rfl
  exact String.lt_irrefl _ hlt

theorem isLevel_singleton (ht : t ∈ c.types) : c.IsLevel (c.chain t.name).length [t] where
  nodup := List.nodup_singleton t
  known u hu := by
    rw [List.mem_singleton.mp hu]
    exact ht
  length u hu := by rw [List.mem_singleton.mp hu]

/-- **One step below a level** is a level. -/
theorem IsLevel.next (hs : c.Sorted) (hc : c.Rooted) (h : c.IsLevel n level) :
    c.IsLevel (n + 1) (level.flatMap fun t => c.children t.name) where
  nodup := by
    refine List.nodup_flatMap.mpr ⟨fun t _ => hs.nodup.filter _, ?_⟩
    refine h.nodup.pairwise_of_forall_ne ?_
    intro t ht u hu hne v hvt hvu
    -- a common child has both as its base
    have hbase := (mem_children_iff.mp hvt).2
    have hbase' := (mem_children_iff.mp hvu).2
    exact hne (hs.base_unique (h.known t ht) (h.known u hu) hbase hbase')
  known u hu := by
    obtain ⟨t, _, hu⟩ := List.mem_flatMap.mp hu
    exact (mem_children_iff.mp hu).1
  length u hu := by
    obtain ⟨t, ht, hu⟩ := List.mem_flatMap.mp hu
    obtain ⟨hmem, hbase⟩ := mem_children_iff.mp hu
    rw [chain_eq_cons hs hc hmem hbase, List.length_cons, h.length t ht]

theorem isLevel_children (hs : c.Sorted) (hc : c.Rooted) (ht : t ∈ c.types) :
    c.IsLevel ((c.chain t.name).length + 1) (c.children t.name) := by
  have hnext := (isLevel_singleton ht).next hs hc
  rwa [List.flatMap_singleton] at hnext

theorem IsLevel.le_length (hs : c.Sorted) (hc : c.Rooted) (h : c.IsLevel n level) {depth : Nat}
    (hu : u ∈ c.descend depth level) : n ≤ (c.chain u.name).length := by
  obtain ⟨t, ht, hderives⟩ := exists_of_mem_descend h.known hu
  rw [← h.length t ht]
  exact hderives.length_le hs hc

/-- The levels below a level have no type in common. -/
theorem IsLevel.nodup_descend (hs : c.Sorted) (hc : c.Rooted) {depth : Nat} :
    ∀ {n : Nat} {level : List EntityType}, c.IsLevel n level →
      (c.descend depth level).Nodup := by
  induction depth with
  | zero => exact fun _ => List.nodup_nil
  | succ depth ih =>
    intro n level h
    have hnext := h.next hs hc
    refine List.nodup_append.mpr ⟨h.nodup, ih hnext, ?_⟩
    -- a type of the level would have a chain as long as those further down
    rintro t ht u hu rfl
    have hlength := h.length t ht
    have hle := hnext.le_length hs hc hu
    omega

/-- Chains do not get shorter further down. -/
theorem IsLevel.pairwise_descend (hs : c.Sorted) (hc : c.Rooted) {depth : Nat} :
    ∀ {n : Nat} {level : List EntityType}, c.IsLevel n level →
      (c.descend depth level).Pairwise fun u v =>
        (c.chain u.name).length ≤ (c.chain v.name).length := by
  induction depth with
  | zero => exact fun _ => List.Pairwise.nil
  | succ depth ih =>
    intro n level h
    have hnext := h.next hs hc
    refine List.pairwise_append.mpr ⟨?_, ih hnext, ?_⟩
    · refine List.pairwise_of_forall_mem_list ?_
      intro t ht u hu
      exact Nat.le_of_eq ((h.length t ht).trans (h.length u hu).symm)
    · intro t ht u hu
      have hle := hnext.le_length hs hc hu
      rw [h.length t ht]
      omega

/-! ## Derived types -/

/-- **The types below a type** are the others that derive from it. -/
theorem mem_descendants_iff (hs : c.Sorted) (hc : c.Rooted) (ht : t ∈ c.types) :
    u ∈ c.descendants t.name ↔ u ≠ t ∧ c.DerivesFrom t u := by
  rw [← mem_cons_descendants_iff hs hc ht, List.mem_cons]
  constructor
  · intro hu
    refine ⟨?_, .inr hu⟩
    rintro rfl
    have hle := (isLevel_children hs hc ht).le_length hs hc hu
    omega
  · rintro ⟨hne, hu⟩
    exact hu.resolve_left hne

theorem nodup_descendants (hs : c.Sorted) (hc : c.Rooted) (ht : t ∈ c.types) :
    (c.descendants t.name).Nodup := (isLevel_children hs hc ht).nodup_descend hs hc

/-- **Nearer types come first**, and so no type before its base. -/
theorem pairwise_descendants (hs : c.Sorted) (hc : c.Rooted) (ht : t ∈ c.types) :
    (c.descendants t.name).Pairwise fun u v =>
      c.distance t.name u.name ≤ c.distance t.name v.name ∧ u.base ≠ some v.name := by
  refine ((isLevel_children hs hc ht).pairwise_descend hs hc).imp_of_mem ?_
  intro u v hu hv hle
  have htu := ((mem_descendants_iff hs hc ht).mp hu).2
  have htv := ((mem_descendants_iff hs hc ht).mp hv).2
  constructor
  · have hlength := htu.length_chain hs hc
    have hlength' := htv.length_chain hs hc
    omega
  · intro hbase
    rw [chain_eq_cons hs hc htu.mem hbase, List.length_cons] at hle
    omega

/-! ## A queue of types -/

/-- Taking types from the front of a queue, with the children of each new one put at its end,
finds these types in turn. -/
inductive Explores (c : Catalog) : (found queue all : List EntityType) → Prop where
  | done {found : List EntityType} : Explores c found [] found
  | known {t : EntityType} {found queue all : List EntityType} :
    t ∈ found → Explores c found queue all → Explores c found (t :: queue) all
  | new {t : EntityType} {found queue all : List EntityType} :
    t ∉ found → Explores c (found ++ [t]) (queue ++ c.children t.name) all →
    Explores c found (t :: queue) all

/-- What is left of a level is taken first, and its children wait behind those already there. -/
theorem Explores.of_level {all : List EntityType} : ∀ {level found waiting : List EntityType},
    (found ++ level).Nodup →
    c.Explores (found ++ level) (waiting ++ level.flatMap fun t => c.children t.name) all →
    c.Explores found (level ++ waiting) all := by
  intro level
  induction level with
  | nil =>
    intro found waiting _ h
    rwa [List.append_nil, List.flatMap_nil, List.append_nil] at h
  | cons t rest ih =>
    intro found waiting hnodup h
    have hnew : t ∉ found := by
      intro ht
      exact (List.nodup_append.mp hnodup).2.2 t ht t List.mem_cons_self rfl
    have hfound : found ++ t :: rest = (found ++ [t]) ++ rest := by
      rw [List.append_assoc, List.singleton_append]
    rw [List.cons_append]
    refine .new hnew ?_
    -- the children of `t` now wait behind those of the types before it in the level
    rw [hfound] at hnodup h
    rw [List.append_assoc]
    refine ih hnodup ?_
    rwa [List.flatMap_cons, ← List.append_assoc] at h

/-- Exploring a level finds all levels below it, where there are no more of them. -/
theorem IsLevel.explores (hs : c.Sorted) (hc : c.Rooted) {depth : Nat} :
    ∀ {n : Nat} {level found : List EntityType}, c.IsLevel n level →
      c.types.length < n + depth → (found ++ c.descend depth level).Nodup →
      c.Explores found level (found ++ c.descend depth level) := by
  induction depth with
  | zero =>
    intro n level found h hlt _
    cases level with
    | nil =>
      rw [descend, List.append_nil]
      exact .done
    | cons t rest =>
      -- no chain is longer than there are types
      have hlength := h.length t List.mem_cons_self
      have hle : (c.chain t.name).length ≤ c.types.length := length_climb_le _ _
      omega
  | succ depth ih =>
    intro n level found h hlt hnodup
    rw [descend, ← List.append_assoc] at hnodup ⊢
    have hbelow := ih (h.next hs hc) (by omega) hnodup
    have hlevel : c.Explores found (level ++ []) _ :=
      Explores.of_level (List.nodup_append.mp hnodup).1 hbelow
    rwa [List.append_nil] at hlevel

/-- **The types below a type** are what its children lead to, breadth first. -/
theorem explores_descendants (hs : c.Sorted) (hc : c.Rooted) (ht : t ∈ c.types) :
    c.Explores [] (c.children t.name) (c.descendants t.name) := by
  have hlevel := isLevel_children hs hc ht
  have hnodup := nodup_descendants hs hc ht
  exact hlevel.explores hs hc (by omega) hnodup

/-! ## Hierarchies -/

/-- **A type is polymorphic** if and only if another one is related to it. -/
theorem isPolymorphic_iff (hs : c.Sorted) (hc : c.Rooted) (hl : c.Linked) (ht : t ∈ c.types) :
    c.isPolymorphic t ↔ ∃ u ∈ c.types, u ≠ t ∧ c.areRelated t.name u.name := by
  have hrelated : ∀ u ∈ c.types,
      (c.areRelated t.name u.name ↔ c.DerivesFrom t u ∨ c.DerivesFrom u t) := by
    intro u hu
    rw [areRelated, Bool.or_eq_true, isAssignable_iff hs hc ht hu, isAssignable_iff hs hc hu ht]
  rw [hl.isPolymorphic_iff ht]
  constructor
  · rintro (hderived | ⟨u, hu⟩)
    · -- the base is related
      obtain ⟨base, hbase⟩ := Option.isSome_iff_exists.mp hderived
      obtain ⟨b, hb, _⟩ := chain_of_base hc (hs.find?_of_mem ht) hbase
      rw [← find?_name hb] at hbase
      have hderives : c.DerivesFrom b t := .base (.self (find?_mem hb)) ht hbase
      refine ⟨b, find?_mem hb, ?_, (hrelated b (find?_mem hb)).mpr (.inr hderives)⟩
      -- a type is not its own base, or its chain would be longer than itself
      rintro rfl
      have hcons := congrArg List.length (chain_eq_cons hs hc ht hbase)
      rw [List.length_cons] at hcons
      omega
    · -- so is every type below
      obtain ⟨hne, hderives⟩ := (mem_descendants_iff hs hc ht).mp hu
      exact ⟨u, hderives.mem, hne, (hrelated u hderives.mem).mpr (.inl hderives)⟩
  · rintro ⟨u, hu, hne, h⟩
    -- related types lie below, or above where the type is derived
    rcases (hrelated u hu).mp h with hderives | hderives
    · exact .inr ⟨u, (mem_descendants_iff hs hc ht).mpr ⟨hne, hderives⟩⟩
    · rcases hderives.eq_or_isDerived with rfl | hderived
      · exact absurd rfl hne
      · exact .inl hderived

end Catalog

/-! ## Finished schemas -/

variable {m : Model} {conventions : List Convention} {s : Schema}

/-- **Downwards and upwards, inheritance is the same.** In a schema that conventions of this library
finished, in whatever order, the derived types of a type are the others that are assignable to it.
They are listed as a queue of children finds them, each once, the nearer ones first and none before
its base. Being assignable is a partial order, in which the types that a type derives from are in a
line; and a type is polymorphic just when another one is related to it. -/
theorem derived_iff_assignable (hm : m.Sorted) (h : m.finish conventions = .ok s) :
    (∀ a ∈ s.types,
      (∀ b, b ∈ s.derived a.name ↔ b ∈ s.types ∧ b ≠ a ∧ s.isAssignable a.name b.name)
      ∧ s.Explores [] (s.children a.name) (s.derived a.name)
      ∧ (s.derived a.name).Nodup
      ∧ (s.derived a.name).Pairwise fun u v =>
        s.distance a.name u.name ≤ s.distance a.name v.name ∧ u.base ≠ some v.name)
    ∧ (∀ a ∈ s.types, s.isAssignable a.name a.name)
    ∧ (∀ a ∈ s.types, ∀ b ∈ s.types,
      s.isAssignable a.name b.name → s.isAssignable b.name a.name → a = b)
    ∧ (∀ a ∈ s.types, ∀ b ∈ s.types, ∀ d ∈ s.types,
      s.isAssignable a.name b.name → s.isAssignable b.name d.name → s.isAssignable a.name d.name)
    ∧ (∀ a ∈ s.types, ∀ a' ∈ s.types, ∀ b ∈ s.types,
      s.isAssignable a.name b.name → s.isAssignable a'.name b.name → s.areRelated a.name a'.name)
    ∧ ∀ t ∈ s.types, s.isPolymorphic t ↔ ∃ u ∈ s.types, u ≠ t ∧ s.areRelated t.name u.name := by
  have hs : s.Sorted := Model.finish_sorted hm h
  have hc : s.Rooted := (Model.finish_eq_ok h).1
  have hl : s.Linked := Model.finish_linked h
  have hassign : ∀ {a b : EntityType}, a ∈ s.types → b ∈ s.types →
      (s.isAssignable a.name b.name ↔ s.DerivesFrom a b) :=
    fun ha hb => Catalog.isAssignable_iff hs hc ha hb
  refine ⟨?_, ?_, ?_, ?_, ?_, ?_⟩
  · intro a ha
    -- links and walks list the same types
    rw [hl.derived_eq hs ha]
    refine ⟨?_, Catalog.explores_descendants hs hc ha, Catalog.nodup_descendants hs hc ha,
      Catalog.pairwise_descendants hs hc ha⟩
    intro b
    rw [Catalog.mem_descendants_iff hs hc ha]
    constructor
    · rintro ⟨hne, hderives⟩
      exact ⟨hderives.mem, hne, (hassign ha hderives.mem).mpr hderives⟩
    · rintro ⟨hb, hne, hab⟩
      exact ⟨hne, (hassign ha hb).mp hab⟩
  · intro a ha
    exact (hassign ha ha).mpr (.self ha)
  · intro a ha b hb hab hba
    exact ((hassign ha hb).mp hab).antisymm hs hc ((hassign hb ha).mp hba)
  · intro a ha b hb d hd hab hbd
    exact (hassign ha hd).mpr (((hassign ha hb).mp hab).trans ((hassign hb hd).mp hbd))
  · intro a ha a' ha' b hb hab hab'
    rw [Catalog.areRelated, Bool.or_eq_true, hassign ha ha', hassign ha' ha]
    exact ((hassign ha hb).mp hab).comparable hs ((hassign ha' hb).mp hab')
  · intro t ht
    exact Catalog.isPolymorphic_iff hs hc hl ht

/-- A model of beings in two levels. -/
def beingModel : Model where
  types := [
    { name := "Animal", base := some "Being" },
    { name := "Being" },
    { name := "Cat", base := some "Animal" },
    { name := "Plant", base := some "Being" }]

/-- The schema of beings, where only discriminators were filled in. -/
def beings : Schema where
  types := [
    { name := "Animal", base := some "Being", discriminatorValue := some "Animal"
      below := ["Cat"] },
    { name := "Being", discriminatorValue := some "Being", below := ["Animal", "Plant", "Cat"] },
    { name := "Cat", base := some "Animal", discriminatorValue := some "Cat" },
    { name := "Plant", base := some "Being", discriminatorValue := some "Plant" }]
  discriminatorElement := "_t"

/-- Cats are found below beings, but not below plants. -/
theorem derived_iff_assignable_beings :
    beingModel.Sorted ∧ beingModel.finish [.discriminator] = .ok beings
      ∧ beings.types.get ⟨2, by decide⟩ ∈ beings.derived "Being"
      ∧ beings.types.get ⟨2, by decide⟩ ∉ beings.derived "Plant" := by
  have hm : beingModel.Sorted := by decide
  have h : beingModel.finish [.discriminator] = .ok beings := rfl
  have hlists := (derived_iff_assignable hm h).1
  have hbeing := (hlists (beings.types.get ⟨1, by decide⟩) (by decide)).1
  have hplant := (hlists (beings.types.get ⟨3, by decide⟩) (by decide)).1
  refine ⟨hm, h, (hbeing _).mpr ⟨by decide, by decide, by decide⟩, ?_⟩
  intro hcat
  have hassignable := ((hplant _).mp hcat).2.2
  revert hassignable
  decide

end Odm
