import Odm.Table

/-!
# Tables in key order

A table that is built by insertions has its keys in strictly ascending order, so it has one entry
for each key and membership is the same as being found.
-/

namespace Odm.Table

variable {ν : Type}

/-- The keys ascend strictly. -/
def Sorted (table : Table String ν) : Prop := table.Pairwise fun a b => a.1 < b.1

theorem mem_of_get? {κ : Type} [DecidableEq κ] {table : Table κ ν} {key : κ} {value : ν}
    (h : table.get? key = some value) : (key, value) ∈ table := by
  induction table with
  | nil => cases h
  | cons entry rest ih =>
    obtain ⟨k, v⟩ := entry
    rw [get?_cons] at h
    split at h
    · rename_i hk
      cases h
      rw [hk]
      exact List.mem_cons_self
    · exact List.mem_cons_of_mem _ (ih h)

theorem get?_of_mem {table : Table String ν} (hsorted : table.Sorted) {key : String}
    {value : ν} (h : (key, value) ∈ table) : table.get? key = some value := by
  induction table with
  | nil => cases h
  | cons entry rest ih =>
    obtain ⟨k, v⟩ := entry
    obtain ⟨hfirst, hrest⟩ := List.pairwise_cons.mp hsorted
    rw [get?_cons]
    rcases List.mem_cons.mp h with heq | hmem
    · cases heq
      rw [if_pos rfl]
    · -- all later keys are greater than the first one
      have hlt : k < key := hfirst _ hmem
      have hne : k ≠ key := by
        rintro rfl
        exact String.lt_irrefl k hlt
      rw [if_neg hne, ih hrest hmem]

theorem mem_insert {table : Table String ν} {key : String} {value : ν} {entry : String × ν}
    (h : entry ∈ table.insert key value) : entry = (key, value) ∨ entry ∈ table := by
  induction table with
  | nil => exact .inl (List.mem_singleton.mp h)
  | cons first rest ih =>
    obtain ⟨k, v⟩ := first
    unfold insert at h
    split at h
    · rcases List.mem_cons.mp h with h | h
      · exact .inl h
      · exact .inr (List.mem_cons_of_mem _ h)
    · -- the entry is put in front of a greater key, or somewhere in the rest
      split at h
      · rcases List.mem_cons.mp h with h | h
        · exact .inl h
        · exact .inr h
      · rcases List.mem_cons.mp h with h | h
        · exact .inr (h ▸ List.mem_cons_self)
        · rcases ih h with h | h
          · exact .inl h
          · exact .inr (List.mem_cons_of_mem _ h)

theorem mem_foldl_insert {entry : String × ν} (entries : List (String × ν)) :
    ∀ {table : Table String ν},
      entry ∈ entries.foldl (fun (table : Table String ν) (k, v) => table.insert k v) table →
      entry ∈ entries ∨ entry ∈ table := by
  induction entries with
  | nil => exact fun h => .inr h
  | cons first rest ih =>
    intro table h
    rcases ih h with hrest | htable
    · exact .inl (List.mem_cons_of_mem _ hrest)
    · rcases mem_insert htable with rfl | htable
      · exact .inl List.mem_cons_self
      · exact .inr htable

/-- All entries of a table are among those that it is made of. -/
theorem mem_ofEntries {entries : List (String × ν)} {entry : String × ν}
    (h : entry ∈ ofEntries entries) : entry ∈ entries :=
  (mem_foldl_insert entries h).resolve_right List.not_mem_nil

/-- The place of an entry does not depend on the values. -/
theorem insert_map {μ : Type} (f : ν → μ) (table : Table String ν) (key : String) (value : ν) :
    Table.insert (table.map fun entry => (entry.1, f entry.2)) key (f value)
      = (table.insert key value).map fun entry => (entry.1, f entry.2) := by
  induction table with
  | nil => rfl
  | cons first rest ih =>
    obtain ⟨k, v⟩ := first
    rw [List.map_cons, insert, insert]
    split
    · rfl
    · split
      · rfl
      · rw [List.map_cons, ih]

/-- **Insertion keeps the order.** -/
theorem sorted_insert {table : Table String ν} (h : table.Sorted) (key : String) (value : ν) :
    (table.insert key value).Sorted := by
  induction table with
  | nil => exact List.pairwise_singleton _ _
  | cons first rest ih =>
    obtain ⟨k, v⟩ := first
    obtain ⟨hfirst, hrest⟩ := List.pairwise_cons.mp h
    unfold insert
    split
    · rename_i hk
      exact List.pairwise_cons.mpr ⟨fun entry he => hk ▸ hfirst entry he, hrest⟩
    · rename_i hne
      split
      · rename_i hlt
        refine List.pairwise_cons.mpr ⟨?_, h⟩
        intro entry he
        rcases List.mem_cons.mp he with rfl | he
        · exact hlt
        · exact String.lt_trans hlt (hfirst entry he)
      · rename_i hnlt
        -- a key that is neither the first one nor smaller belongs into the rest
        have hlt : k < key := Std.lt_of_le_of_ne (String.not_lt.mp hnlt) hne
        refine List.pairwise_cons.mpr ⟨?_, ih hrest⟩
        intro entry he
        rcases mem_insert he with rfl | he
        · exact hlt
        · exact hfirst entry he

theorem Sorted.nodup_keys {table : Table String ν} (h : table.Sorted) :
    (table.map Prod.fst).Nodup := by
  rw [List.nodup_iff_pairwise_ne, List.pairwise_map]
  refine h.imp ?_
  intro a b hlt heq
  rw [heq] at hlt
  exact String.lt_irrefl _ hlt

/-- A new key comes in, and all others stay. -/
theorem keys_insert_perm {table : Table String ν} {key : String} (h : key ∉ table.keys)
    (value : ν) : (table.insert key value).keys.Perm (key :: table.keys) := by
  induction table with
  | nil => exact .refl _
  | cons first rest ih =>
    obtain ⟨k, v⟩ := first
    rw [keys, List.map_cons, List.mem_cons, not_or] at h
    obtain ⟨hne, hrest⟩ := h
    unfold insert
    rw [if_neg (Ne.symm hne)]
    split
    · exact .refl _
    · exact ((ih hrest).cons k).trans (.swap key k _)

/-- **Of many insertions the last one under a key counts.** -/
theorem get?_foldl_insert {α : Type} (active : α → Bool) (key : α → String) (value : α → ν)
    (name : String) (xs : List α) : ∀ table : Table String ν,
      (xs.foldl (fun table x => if active x then table.insert (key x) (value x) else table)
          table).get? name
        = ((xs.reverse.find? fun x => active x && key x = name).map value
            <|> table.get? name) := by
  induction xs with
  | nil => exact fun _ => rfl
  | cons x rest ih =>
    intro table
    rw [List.foldl_cons, ih, List.reverse_cons, List.find?_append]
    -- a hit in the rest comes later and counts; otherwise it is up to the first insertion
    cases rest.reverse.find? fun x => active x && key x = name with
    | some y => rfl
    | none =>
      cases hactive : active x with
      | false => simp [hactive]
      | true =>
        by_cases hkey : key x = name
        · subst hkey
          simp [hactive]
        · simp [hactive, hkey, get?_insert_ne _ (Ne.symm hkey)]

end Odm.Table
