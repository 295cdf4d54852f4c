/-!
# Ordered tables

A table is a list of entries in ascending order of their keys. It serves wherever
a result has to come out in key order: the fields of a document, the output paths
of a query, the collections of a save.

`insert` keeps the order and replaces the entry of an equal key, so after any
sequence of insertions a lookup finds the last value inserted under its key.
-/

namespace Odm

/-- Entries by key, in ascending order when built by `insert`. -/
abbrev Table (κ ν : Type) := List (κ × ν)

namespace Table

variable {κ ν : Type} [DecidableEq κ]

/-- The value held under a key. -/
def get? (table : Table κ ν) (key : κ) : Option ν :=
  match table with
  | [] => none
  | (k, v) :: rest => if k = key then some v else get? rest key

/-- Whether a key has an entry. -/
def contains (table : Table κ ν) (key : κ) : Bool := (table.get? key).isSome

/-- The table with `value` under `key`, in front of the first greater key. -/
def insert [LT κ] [DecidableLT κ] (table : Table κ ν) (key : κ) (value : ν) : Table κ ν :=
  match table with
  | [] => [(key, value)]
  | (k, v) :: rest =>
    if k = key then (key, value) :: rest
    else if key < k then (key, value) :: (k, v) :: rest
    else (k, v) :: insert rest key value

/-- The table of the given entries; of equal keys the last one counts. -/
def ofEntries [LT κ] [DecidableLT κ] (entries : List (κ × ν)) : Table κ ν :=
  entries.foldl (fun table (k, v) => table.insert k v) []

/-- The keys in order. -/
def keys (table : Table κ ν) : List κ := table.map Prod.fst

@[simp]
theorem get?_nil (key : κ) : get? ([] : Table κ ν) key = none := rfl

theorem get?_cons (k key : κ) (v : ν) (rest : Table κ ν) :
    get? ((k, v) :: rest) key = if k = key then some v else get? rest key := rfl

@[simp]
theorem get?_insert_self [LT κ] [DecidableLT κ] (table : Table κ ν) (key : κ) (value : ν) :
    (table.insert key value).get? key = some value := by
  induction table with
  | nil => simp [insert, get?_cons]
  | cons entry rest ih =>
    obtain ⟨k, v⟩ := entry
    unfold insert
    by_cases hk : k = key
    · simp [hk, get?_cons]
    · by_cases hlt : key < k
      · simp [hk, hlt, get?_cons]
      · simpa [hk, hlt, get?_cons] using ih

theorem get?_insert_ne [LT κ] [DecidableLT κ] (table : Table κ ν) {key other : κ}
    (h : other ≠ key) (value : ν) : (table.insert key value).get? other = table.get? other := by
  induction table with
  | nil => simp [insert, get?_cons, h.symm]
  | cons entry rest ih =>
    obtain ⟨k, v⟩ := entry
    unfold insert
    by_cases hk : k = key
    · subst hk
      simp [get?_cons, h.symm]
    · by_cases hlt : key < k
      · simp [hk, hlt, get?_cons, h.symm]
      · simp only [hk, hlt, if_false, get?_cons]
        rw [ih]

end Table

end Odm
