import Mathlib.Data.List.Forall2
import Odm.Proofs.Save.Ways
import Odm.Proofs.Schema.Valid
import Odm.Proofs.Update.Layout

/-!
# What a save prepares

Every pending entry is saved with its root, and every root is written once, however many pending
entries lead to it. A *prepared* save has one batch for each collection that holds a root, and the
batch has one directive for each root of the collection, in the order of their ids. What the
directive does depends on the state of the root alone.

Roots are entities that are stored in documents of their own, so they have collections.
-/

namespace Odm

namespace ChangeSet

variable {s : Schema} {changes : ChangeSet}

/-! ## Roots -/

/-- A root is an entry whose type is stored in documents of its own. -/
theorem exists_of_climb {entries : List Entry} :
    ∀ {id root : Nat}, climb s entries id = .ok root →
      ∃ e ∈ entries, e.id = root ∧ s.isDocumentRoot e.entityType.name := by
  induction entries with
  | nil => intro id root h; cases h
  | cons e earlier ih =>
    intro id root h
    rw [climb] at h
    -- the climb goes on among earlier entries, or ends here
    split at h
    · obtain ⟨e', he', hroot⟩ := ih h
      exact ⟨e', List.mem_cons_of_mem _ he', hroot⟩
    · rename_i hid
      split at h
      · rename_i hstored
        cases h
        exact ⟨e, List.mem_cons_self, Decidable.not_not.mp hid, hstored⟩
      · split at h
        · obtain ⟨e', he', hroot⟩ := ih h
          exact ⟨e', List.mem_cons_of_mem _ he', hroot⟩
        · cases h

theorem Numbered.exists_of_root (h : changes.Numbered) {id root : Nat}
    (hroot : changes.root s id = .ok root) :
    ∃ e, changes.entry? root = some e ∧ s.isDocumentRoot e.entityType.name := by
  obtain ⟨e, he, rfl, hstored⟩ := exists_of_climb hroot
  exact ⟨e, h.entry?_id (List.mem_reverse.mp he), hstored⟩

/-- The climb passes over entries with other ids. -/
theorem climb_append {id : Nat} {later earlier : List Entry} (hlater : ∀ e ∈ later, e.id ≠ id) :
    climb s (later ++ earlier) id = climb s earlier id := by
  induction later with
  | nil => rfl
  | cons e rest ih =>
    obtain ⟨he, hrest⟩ := List.forall_mem_cons.mp hlater
    rw [List.cons_append, climb, if_pos he, ih hrest]

/-- Of all entries, the climb looks at no later one. -/
theorem Numbered.climb_take (h : changes.Numbered) {id n : Nat} (hlt : id < n) :
    climb s (changes.entries.take n).reverse id = changes.root s id := by
  have hlater : ∀ e ∈ (changes.entries.drop n).reverse, e.id ≠ id := by
    intro e he
    obtain ⟨i, hi⟩ := List.mem_iff_getElem?.mp (List.mem_reverse.mp he)
    rw [List.getElem?_drop] at hi
    have hid : e.id = n + i := h (n + i) e hi
    omega
  have hsplit : changes.entries.reverse
      = (changes.entries.drop n).reverse ++ (changes.entries.take n).reverse := by
    rw [← List.reverse_append, List.take_append_drop]
  rw [root, hsplit, climb_append hlater]

/-- The climb begins at the entry and goes on among those before it. -/
theorem Numbered.root_eq_climb (h : changes.Numbered) {id : Nat} {e : Entry}
    (he : changes.entry? id = some e) :
    changes.root s id = climb s (e :: (changes.entries.take id).reverse) id := by
  have htake : (changes.entries.take (id + 1)).reverse
      = e :: (changes.entries.take id).reverse := by
    rw [List.take_add_one, show changes.entries[id]? = some e from he, Option.toList_some,
      List.reverse_append]
    rfl
  rw [← h.climb_take (Nat.lt_succ_self id), htake]

theorem roots_eq_ok {roots : List Nat} (h : changes.roots s = .ok roots) :
    ∃ found, changes.pending.mapM (changes.root s) = .ok found
      ∧ roots = (List.range changes.count).filter fun id => found.contains id := by
  obtain ⟨found, hfound, h⟩ := Except.bind_eq_ok_iff.mp h
  exact ⟨found, hfound, (Except.pure_eq_ok_iff.mp h).symm⟩

/-- Roots come in the order of their ids. -/
theorem roots_ascending {roots : List Nat} (h : changes.roots s = .ok roots) :
    roots.Pairwise (· < ·) := by
  obtain ⟨found, _, rfl⟩ := roots_eq_ok h
  exact List.pairwise_lt_range.filter _

/-- To every root some pending entry leads. -/
theorem exists_pending {roots : List Nat} (h : changes.roots s = .ok roots) {id : Nat}
    (hid : id ∈ roots) : ∃ p ∈ changes.pending, changes.root s p = .ok id := by
  obtain ⟨found, hfound, rfl⟩ := roots_eq_ok h
  have hmem := (List.mem_filter.mp hid).2
  rw [List.contains_iff_mem] at hmem
  exact (Except.mem_iff_of_mapM hfound id).mp hmem

/-- **The roots are what pending entries lead to.** -/
theorem Numbered.mem_roots_iff (hnumbered : changes.Numbered) {roots : List Nat}
    (h : changes.roots s = .ok roots) {id : Nat} :
    id ∈ roots ↔ ∃ p ∈ changes.pending, changes.root s p = .ok id := by
  refine ⟨exists_pending h, ?_⟩
  rintro ⟨p, hp, hroot⟩
  obtain ⟨found, hfound, rfl⟩ := roots_eq_ok h
  obtain ⟨e, he, _⟩ := hnumbered.exists_of_root hroot
  refine List.mem_filter.mpr ⟨List.mem_range.mpr ?_, ?_⟩
  · exact (List.getElem?_eq_some_iff.mp he).1
  · rw [List.contains_iff_mem]
    exact (Except.mem_iff_of_mapM hfound id).mpr ⟨p, hp, hroot⟩

/-! ## Groups -/

/-- The collection that an entry with a document of its own is stored in. -/
def collection? (s : Schema) (changes : ChangeSet) (id : Nat) : Option String :=
  (changes.entry? id).bind fun e => (s.collectionName e.entityType.name).toOption

/-- Those of some entries that are stored in a collection. -/
def storedIn (s : Schema) (changes : ChangeSet) (collection : String) (ids : List Nat) :
    List Nat :=
  ids.filter fun id => changes.collection? s id = some collection

/-- **A root has a collection.** -/
theorem Numbered.exists_collection (hnumbered : changes.Numbered) {roots : List Nat}
    (h : changes.roots s = .ok roots) {id : Nat} (hid : id ∈ roots) :
    ∃ e collection, changes.entry? id = some e
      ∧ s.collectionName e.entityType.name = .ok collection := by
  obtain ⟨p, _, hroot⟩ := exists_pending h hid
  obtain ⟨e, he, hstored⟩ := hnumbered.exists_of_root hroot
  obtain ⟨collection, hcollection⟩ := Schema.exists_collectionName_iff.mpr hstored
  exact ⟨e, collection, he, hcollection⟩

theorem addToGroup_eq_ok {groups groups' : Groups} {root : Nat}
    (h : changes.addToGroup s groups root = .ok groups') :
    ∃ collection, changes.collection? s root = some collection
      ∧ groups' = groups.insert collection ((groups.get? collection).getD [] ++ [root]) := by
  obtain ⟨e, he, h⟩ := Except.bind_eq_ok_iff.mp h
  obtain ⟨collection, hc, h⟩ := Except.bind_eq_ok_iff.mp h
  have hentry := entry_eq_ok (Except.mapError_eq_ok_iff.mp he)
  have hname := Except.mapError_eq_ok_iff.mp hc
  refine ⟨collection, ?_, (Except.pure_eq_ok_iff.mp h).symm⟩
  rw [collection?, hentry, Option.bind_some, hname]
  rfl

/-- What the groups are of the roots that were added so far: each has the roots of its collection
in their order, and there are no empty ones. -/
def InOrder (s : Schema) (changes : ChangeSet) (roots : List Nat) (groups : Groups) : Prop :=
  ∀ collection, (groups.get? collection).getD [] = changes.storedIn s collection roots
    ∧ groups.get? collection ≠ some []

theorem inOrder_nil (s : Schema) (changes : ChangeSet) : InOrder s changes [] [] := by
  intro collection
  rw [Table.get?_nil]
  exact ⟨rfl, nofun⟩

/-- **One more root goes to the end of the group of its collection.** -/
theorem inOrder_addToGroup {roots : List Nat} {groups groups' : Groups} {root : Nat}
    (hgroups : InOrder s changes roots groups)
    (h : changes.addToGroup s groups root = .ok groups') :
    InOrder s changes (roots ++ [root]) groups' := by
  obtain ⟨collection, hcollection, rfl⟩ := addToGroup_eq_ok h
  intro c
  obtain ⟨hgroup, hne⟩ := hgroups c
  rw [storedIn, List.filter_append, ← storedIn]
  by_cases hc : c = collection
  · subst hc
    -- the root is behind those of its collection that were added before it
    rw [Table.get?_insert_self, Option.getD_some, hgroup,
      List.filter_cons_of_pos (by simpa using hcollection), List.filter_nil]
    exact ⟨rfl, by simp⟩
  · have hother : ¬ changes.collection? s root = some c := by
      rw [hcollection]
      rintro ⟨⟩
      exact hc rfl
    rw [Table.get?_insert_ne _ hc, hgroup, List.filter_cons_of_neg (by simpa using hother),
      List.filter_nil, List.append_nil]
    exact ⟨rfl, hne⟩

/-- **Each group has the roots of its collection, in order.** -/
theorem groups_inOrder {groups : Groups} (h : changes.groups s = .ok groups) :
    ∃ roots, changes.roots s = .ok roots ∧ InOrder s changes roots groups := by
  obtain ⟨roots, hroots, h⟩ := Except.bind_eq_ok_iff.mp h
  refine ⟨roots, hroots, ?_⟩
  exact Except.foldlM_prefix (fun _ _ _ _ hgroups hroot => inOrder_addToGroup hgroups hroot)
    (inOrder_nil s changes) h

end ChangeSet

/-! ## Prepared batches -/

/-- The directive for an entry is one that the entry's own state asks for, made when nothing but
current values can have changed. -/
def UnitOfWork.Makes (s : Schema) (unit : UnitOfWork) (id : Nat) (directive : Directive) : Prop :=
  ∃ e, unit.changes.entry? id = some e ∧ e.state.directiveKind? = some directive.kind
    ∧ ∃ before e' after, before.changes.outlines = unit.changes.outlines
      ∧ before.changes.entry? id = some e' ∧ Written s before id e' directive after

theorem Written.directiveKind? {s : Schema} {unit unit' : UnitOfWork} {id : Nat} {e : Entry}
    {directive : Directive} (h : Written s unit id e directive unit') :
    e.state.directiveKind? = some directive.kind := by
  cases h with
  | inserted hstate _ _ _ =>
    rw [hstate]
    rfl
  | replaced hstate _ _ _ _ => rcases hstate with hstate | hstate <;> (rw [hstate]; rfl)
  | deleted hstate _ _ =>
    rw [hstate]
    rfl

/-- What is prepared for some roots: one batch for each collection that holds one of them, and in
it one directive for each root of the collection, in the order of their ids. -/
structure Prepared (s : Schema) (unit : UnitOfWork) (roots : List Nat) (written : List Batch) :
    Prop where
  ascending : roots.Pairwise (· < ·)
  mem_roots : ∀ id, id ∈ roots ↔ ∃ p ∈ unit.changes.pending, unit.changes.root s p = .ok id
  stored : ∀ id ∈ roots, (unit.changes.collection? s id).isSome
  collections : (written.map Prod.fst).Pairwise (· < ·)
  mem_collections : ∀ collection, collection ∈ written.map Prod.fst
    ↔ ∃ id ∈ roots, unit.changes.collection? s id = some collection
  directives : ∀ batch ∈ written,
    List.Forall₂ (unit.Makes s) (unit.changes.storedIn s batch.1 roots) batch.2

namespace Course

variable {s : Schema} {unit unit' : UnitOfWork} {course : List (String × List Turn)}

theorem makes (h : Course s unit course unit') {collection : String} {turns : List Turn}
    (hturns : (collection, turns) ∈ course) {turn : Turn} (hturn : turn ∈ turns) :
    unit.Makes s turn.id turn.directive := by
  obtain ⟨e', he', _, hout, hwritten⟩ := h.mem_turn hturns hturn
  obtain ⟨e, he, hsame⟩ := ChangeSet.entry?_of_outlines hout he'
  refine ⟨e, he, ?_, _, e', _, hout, he', hwritten⟩
  rw [← Entry.state_of_outline hsame]
  exact hwritten.directiveKind?

/-- The roots of a collection have their turns in the order of their ids. -/
theorem storedIn_eq (h : Course s unit course unit') {roots : List Nat}
    (hroots : unit.changes.roots s = .ok roots) {collection : String} {turns : List Turn}
    (hturns : (collection, turns) ∈ course) :
    unit.changes.storedIn s collection roots = turns.map (·.id) ∧ turns ≠ [] := by
  obtain ⟨roots', hroots', horder⟩ := ChangeSet.groups_inOrder h.groups
  cases hroots.symm.trans hroots'
  obtain ⟨_, _, hgrouped⟩ := ChangeSet.groups_grouped h.groups
  have hgroup := Table.get?_of_mem hgrouped.sorted (List.mem_map_of_mem hturns)
  obtain ⟨hids, hne⟩ := horder collection
  rw [hgroup] at hids hne
  refine ⟨hids.symm, ?_⟩
  rintro rfl
  exact hne rfl

/-- The batches of a course are what is to be prepared. -/
theorem prepared (h : Course s unit course unit') (hnumbered : unit.changes.Numbered)
    {roots : List Nat} (hroots : unit.changes.roots s = .ok roots) :
    Prepared s unit roots (batches course) where
  ascending := ChangeSet.roots_ascending hroots
  mem_roots _ := hnumbered.mem_roots_iff hroots
  stored id hid := by
    obtain ⟨e, collection, he, hcollection⟩ := hnumbered.exists_collection hroots hid
    rw [ChangeSet.collection?, he, Option.bind_some, hcollection]
    rfl
  collections := List.pairwise_map.mpr h.sorted_batches
  mem_collections collection := by
    -- a batch has at least one turn, and the root of a turn is stored in the batch's collection
    constructor
    · intro hmem
      obtain ⟨batch, hbatch, rfl⟩ := List.mem_map.mp hmem
      obtain ⟨⟨c, turns⟩, hturns, rfl⟩ := List.mem_map.mp hbatch
      obtain ⟨hids, hne⟩ := h.storedIn_eq hroots hturns
      obtain ⟨turn, hturn⟩ := List.exists_mem_of_ne_nil turns hne
      have hid : turn.id ∈ unit.changes.storedIn s c roots := hids ▸ List.mem_map_of_mem hturn
      obtain ⟨hid, hcollection⟩ := List.mem_filter.mp hid
      exact ⟨turn.id, hid, of_decide_eq_true hcollection⟩
    · -- a root has a turn, in the batch of the one collection that it is stored in
      rintro ⟨id, hid, hcollection⟩
      obtain ⟨c, earlier, turn, later, hturns, rfl⟩ := h.exists_turn hroots hid
      obtain ⟨hids, _⟩ := h.storedIn_eq hroots hturns
      have hid : turn.id ∈ unit.changes.storedIn s c roots := by
        rw [hids]
        exact List.mem_map_of_mem (List.mem_append_right _ List.mem_cons_self)
      have hc := of_decide_eq_true (List.mem_filter.mp hid).2
      cases hcollection.symm.trans hc
      exact List.mem_map.mpr ⟨_, List.mem_map_of_mem hturns, rfl⟩
  directives batch hbatch := by
    obtain ⟨⟨c, turns⟩, hturns, rfl⟩ := List.mem_map.mp hbatch
    rw [(h.storedIn_eq hroots hturns).1, List.forall₂_map_left_iff, List.forall₂_map_right_iff,
      List.forall₂_same]
    exact fun turn hturn => h.makes hturns hturn

end Course

/-- **A save prepares one directive for each root.** -/
theorem Database.prepared_of_prepare {db : Database} {unit mid : UnitOfWork}
    {written : List Batch} (hnumbered : unit.changes.Numbered)
    (h : db.prepare unit = (.ok written, mid)) :
    ∃ roots, unit.changes.roots db.schema = .ok roots
      ∧ Prepared db.schema unit roots written := by
  obtain ⟨course, hcourse, rfl⟩ := prepare_course h
  obtain ⟨roots, hroots, _⟩ := ChangeSet.groups_grouped hcourse.groups
  exact ⟨roots, hroots, hcourse.prepared hnumbered hroots⟩

end Odm
