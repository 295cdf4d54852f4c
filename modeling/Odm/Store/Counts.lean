/-!
# Bulk write counts
-/

namespace Odm

/-- How many documents a bulk write inserted, found to replace, changed and deleted. -/
structure BulkCounts where
  inserted : Nat := 0
  matched : Nat := 0
  modified : Nat := 0
  deleted : Nat := 0
  deriving DecidableEq, Repr

namespace BulkCounts

/-- How many documents are not as they were. -/
def affected (counts : BulkCounts) : Nat :=
  counts.inserted + counts.modified + counts.deleted

/-- The counts of two bulk writes together. -/
def add (a b : BulkCounts) : BulkCounts :=
  ⟨a.inserted + b.inserted, a.matched + b.matched, a.modified + b.modified,
    a.deleted + b.deleted⟩

theorem affected_add (a b : BulkCounts) : (a.add b).affected = a.affected + b.affected := by
  simp only [affected, add]
  omega

end BulkCounts

end Odm
