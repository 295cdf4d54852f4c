import Odm.Proofs.Save.Preparation
import Odm.Proofs.Update.Edits
import Odm.Proofs.Update.Embedding

/-!
# The way to a root

From a pending entry the way goes up, from owner to owner, to the first entry whose type is stored
in documents of its own. Owners have smaller ids than what they own, so the way takes no more turns
than there are ids below the entry, and whatever edits made the change set, the *line of owners* of
an entry ends with an entry that has no owner. If nothing on that line has a document of its own,
it is the last entry that the error names.
-/

namespace Odm

/-- Whether an entry is stored in a document of its own. -/
def Entry.isRoot (s : Schema) (e : Entry) : Bool := s.isDocumentRoot e.entityType.name

namespace ChangeSet

/-- The way to a root as a loop, which is given up after some turns. -/
def rootWithin (s : Schema) (changes : ChangeSet) :
    (turns : Nat) → Nat → Option (Except SaveError Nat)
  | 0, _ => none
  | turns + 1, id =>
    match changes.entry? id with
    | none => some (.error (.update (.unknownEntry id)))
    | some e =>
      if e.isRoot s then some (.ok id)
      else
        match e.owner with
        | some owner => changes.rootWithin s turns owner
        | none => some (.error (.orphanedEntity e.entityType.name))

/-- An entry, its owner, the owner of that and so on, up to one that has no owner. -/
inductive OwnerLine (changes : ChangeSet) : Nat → List Entry → Prop where
  | top {id : Nat} {e : Entry} (he : changes.entry? id = some e) (howner : e.owner = none) :
    OwnerLine changes id [e]
  | owned {id owner : Nat} {e : Entry} {line : List Entry} (he : changes.entry? id = some e)
    (howner : e.owner = some owner) (hline : OwnerLine changes owner line) :
    OwnerLine changes id (e :: line)

/-- The first entry on a line of owners that is stored in a document of its own. -/
def NearestRoot (s : Schema) (changes : ChangeSet) (id : Nat) (e : Entry) : Prop :=
  ∃ line, changes.OwnerLine id line
    ∧ line.find? (Entry.isRoot s) = some e

/-- Nothing on a line of owners is stored in a document of its own, up to its last entry. -/
def Orphaned (s : Schema) (changes : ChangeSet) (id : Nat) (last : Entry) : Prop :=
  ∃ line, changes.OwnerLine id line ∧ (∀ e ∈ line, ¬ e.isRoot s)
    ∧ line.getLast? = some last

variable {s : Schema} {changes : ChangeSet} {admits : EntityType → Prop} {id : Nat}
  {line line' : List Entry} {e : Entry}

/-! ## Lines of owners -/

/-- An entry has one line of owners. -/
theorem OwnerLine.unique (h : changes.OwnerLine id line) (h' : changes.OwnerLine id line') :
    line = line' := by
  -- the entry of an id, and whether it has an owner, leave no choice between the two rules
  induction h generalizing line' with
  | top he howner =>
    cases h' with
    | top he' howner' =>
      cases he.symm.trans he'
      rfl
    | owned he' howner' _ =>
      cases he.symm.trans he'
      cases howner.symm.trans howner'
  | owned he howner _ ih =>
    cases h' with
    | top he' howner' =>
      cases he.symm.trans he'
      cases howner.symm.trans howner'
    | owned he' howner' hline =>
      cases he.symm.trans he'
      cases howner.symm.trans howner'
      rw [ih hline]

/-- **Every entry has a line of owners**, because owners have smaller ids. -/
theorem Ordered.exists_line (h : changes.Ordered admits) :
    ∀ {id : Nat} {e : Entry}, changes.entry? id = some e →
      ∃ line, changes.OwnerLine id line := by
  intro id
  induction id using Nat.strongRecOn with
  | ind id ih =>
    intro e he
    cases howner : e.owner with
    | none => exact ⟨[e], .top he howner⟩
    | some owner =>
      -- the owner comes before the entry, and so is an entry as well
      have hlt : owner < id := h.owner_lt_of_entry? he howner
      have hid : id < changes.entries.length := (List.getElem?_eq_some_iff.mp he).1
      have hentry := List.getElem?_eq_getElem (Nat.lt_trans hlt hid)
      obtain ⟨line, hline⟩ := ih owner hlt hentry
      exact ⟨e :: line, .owned he howner hline⟩

theorem OwnerLine.exists_last (h : changes.OwnerLine id line) :
    ∃ last, line.getLast? = some last := by
  cases h with
  | top _ _ => exact ⟨_, rfl⟩
  | owned _ _ _ => exact ⟨_, List.getLast?_cons⟩

/-- On a line of owners there is a first entry with a document of its own, if there is any. -/
theorem exists_nearestRoot_iff : (∃ e, changes.NearestRoot s id e)
    ↔ ∃ line, changes.OwnerLine id line ∧ ∃ e ∈ line, e.isRoot s := by
  constructor
  · rintro ⟨e, line, hline, hfind⟩
    exact ⟨line, hline, e, List.mem_of_find?_eq_some hfind, List.find?_some hfind⟩
  · rintro ⟨line, hline, he⟩
    obtain ⟨e, hfind⟩ := Option.isSome_iff_exists.mp (List.find?_isSome.mpr he)
    exact ⟨e, line, hline, hfind⟩

/-! ## The climb -/

theorem Numbered.root_of_none (h : changes.Numbered) (hnone : changes.entry? id = none) :
    changes.root s id = .error (.update (.unknownEntry id)) := by
  have hlater : ∀ e ∈ changes.entries.reverse, e.id ≠ id := by
    rintro e he rfl
    rw [h.entry?_id (List.mem_reverse.mp he)] at hnone
    cases hnone
  rw [root, ← List.append_nil changes.entries.reverse, climb_append hlater, climb]

/-- **One turn of the way to a root.** -/
theorem Ordered.root_of_some (h : changes.Ordered admits) (he : changes.entry? id = some e) :
    changes.root s id = if e.isRoot s then .ok id
      else match e.owner with
        | some owner => changes.root s owner
        | none => .error (.orphanedEntity e.entityType.name) := by
  have hid : e.id = id := h.numbered id e he
  rw [h.numbered.root_eq_climb he, climb, if_neg (not_not_intro hid), Entry.isRoot]
  cases howner : e.owner with
  | none => rfl
  | some owner => simp only [h.numbered.climb_take (h.owner_lt_of_entry? he howner)]

/-- **The loop comes to its end**, after no more turns than there are ids up to the entry. -/
theorem Ordered.rootWithin_eq (h : changes.Ordered admits) {turns : Nat} :
    ∀ {id : Nat}, id < turns → changes.rootWithin s turns id = some (changes.root s id) := by
  induction turns with
  | zero => exact fun hlt => absurd hlt (Nat.not_lt_zero _)
  | succ turns ih =>
    intro id hlt
    rw [rootWithin]
    cases he : changes.entry? id with
    | none => rw [h.numbered.root_of_none he]
    | some e =>
      rw [h.root_of_some he]
      by_cases hroot : e.isRoot s
      · simp only [if_pos hroot]
      · simp only [if_neg hroot]
        cases howner : e.owner with
        | none => rfl
        | some owner =>
          -- the owner's id is smaller, so the turns that are left are enough for it
          have hless := h.owner_lt_of_entry? he howner
          exact ih (Nat.lt_of_lt_of_le hless (Nat.le_of_lt_succ hlt))

/-! ## The end of the way -/

/-- The root is the first entry on the line that has a document of its own. -/
theorem Ordered.root_of_find (h : changes.Ordered admits) (hline : changes.OwnerLine id line)
    (hfind : line.find? (Entry.isRoot s) = some e) :
    changes.root s id = .ok e.id := by
  induction hline with
  | @top id first he howner =>
    have hroot := List.find?_some hfind
    cases List.mem_singleton.mp (List.mem_of_find?_eq_some hfind)
    rw [h.root_of_some he, if_pos hroot, h.numbered id e he]
  | @owned id owner first line he howner _ ih =>
    rw [h.root_of_some he]
    -- either the first entry stops the way and the search, or both go on
    by_cases hroot : first.isRoot s
    · rw [List.find?_cons_of_pos hroot] at hfind
      cases hfind
      rw [if_pos hroot, h.numbered id e he]
    · rw [List.find?_cons_of_neg hroot] at hfind
      rw [if_neg hroot, howner]
      exact ih hfind

/-- Without such an entry the error names the type of the last one. -/
theorem Ordered.root_of_orphaned (h : changes.Ordered admits) (hline : changes.OwnerLine id line)
    {last : Entry} (hno : ∀ e ∈ line, ¬ e.isRoot s) (hlast : line.getLast? = some last) :
    changes.root s id = .error (.orphanedEntity last.entityType.name) := by
  induction hline with
  | @top id first he howner =>
    rw [← Option.some.inj hlast, h.root_of_some he, if_neg (hno first List.mem_cons_self), howner]
    rfl
  | @owned id owner first rest he howner hline ih =>
    obtain ⟨hfirst, hrest⟩ := List.forall_mem_cons.mp hno
    obtain ⟨last', hlast'⟩ := hline.exists_last
    rw [List.getLast?_cons, hlast'] at hlast
    cases hlast
    rw [h.root_of_some he, if_neg hfirst, howner]
    exact ih hrest hlast'

/-- **An entry has a root just if its line of owners has one**, and then it is the nearest. -/
theorem Ordered.root_eq_ok_iff (h : changes.Ordered admits) {root : Nat} :
    changes.root s id = .ok root ↔ ∃ e, changes.NearestRoot s id e ∧ e.id = root := by
  constructor
  · intro hroot
    cases he : changes.entry? id with
    | none => cases (h.numbered.root_of_none he).symm.trans hroot
    | some e =>
      obtain ⟨line, hline⟩ := h.exists_line he
      -- the search over the line decides between the two ends of the way
      cases hfind : line.find? (Entry.isRoot s) with
      | none =>
        obtain ⟨last, hlast⟩ := hline.exists_last
        cases (h.root_of_orphaned hline (List.find?_eq_none.mp hfind) hlast).symm.trans hroot
      | some first =>
        cases (h.root_of_find hline hfind).symm.trans hroot
        exact ⟨first, ⟨line, hline, hfind⟩, rfl⟩
  · rintro ⟨e, ⟨line, hline, hfind⟩, rfl⟩
    exact h.root_of_find hline hfind

theorem Ordered.exists_root_iff (h : changes.Ordered admits) :
    (∃ root, changes.root s id = .ok root) ↔ ∃ e, changes.NearestRoot s id e := by
  constructor
  · rintro ⟨root, hroot⟩
    obtain ⟨e, he, _⟩ := h.root_eq_ok_iff.mp hroot
    exact ⟨e, he⟩
  · rintro ⟨e, he⟩
    exact ⟨e.id, h.root_eq_ok_iff.mpr ⟨e, he, rfl⟩⟩

/-- **An entry has no root just if it is orphaned.** -/
theorem Ordered.root_eq_error_iff (h : changes.Ordered admits) (he : e ∈ changes.entries)
    {error : SaveError} : changes.root s e.id = .error error
      ↔ ∃ last, changes.Orphaned s e.id last ∧ error = .orphanedEntity last.entityType.name := by
  constructor
  · intro herror
    obtain ⟨line, hline⟩ := h.exists_line (h.numbered.entry?_id he)
    obtain ⟨last, hlast⟩ := hline.exists_last
    cases hfind : line.find? (Entry.isRoot s) with
    | some first => cases (h.root_of_find hline hfind).symm.trans herror
    | none =>
      have hno := List.find?_eq_none.mp hfind
      cases (h.root_of_orphaned hline hno hlast).symm.trans herror
      exact ⟨last, ⟨line, hline, hno, hlast⟩, rfl⟩
  · rintro ⟨last, ⟨line, hline, hno, hlast⟩, rfl⟩
    exact h.root_of_orphaned hline hno hlast

/-! ## All roots -/

/-- Pending entries come in the order of their ids. -/
theorem Numbered.pending_ascending (h : changes.Numbered) : changes.pending.Pairwise (· < ·) := by
  -- ids are positions, so entries are listed in the order of their ids
  have hids : changes.entries.map (·.id) = List.range changes.count := by
    refine List.ext_getElem? fun i => ?_
    rw [List.getElem?_map]
    cases he : changes.entries[i]? with
    | none =>
      rw [Option.map_none, List.getElem?_eq_none]
      rw [List.length_range]
      exact List.getElem?_eq_none_iff.mp he
    | some e =>
      rw [Option.map_some, h i e he, List.getElem?_range]
      exact (List.getElem?_eq_some_iff.mp he).1
  have hall : (changes.entries.map (·.id)).Pairwise (· < ·) := by
    rw [hids]
    exact List.pairwise_lt_range
  exact hall.sublist (List.filter_sublist.map _)

theorem exists_of_mem_pending (hid : id ∈ changes.pending) :
    ∃ e ∈ changes.entries, e.id = id := by
  obtain ⟨e, he, rfl⟩ := List.mem_map.mp hid
  exact ⟨e, (List.mem_filter.mp he).1, rfl⟩

theorem roots_eq_error_iff {error : SaveError} : changes.roots s = .error error
    ↔ changes.pending.mapM (changes.root s) = .error error := by
  refine Except.bind_eq_error_iff.trans ⟨?_, Or.inl⟩
  rintro (h | ⟨_, _, h⟩)
  · exact h
  · cases h

theorem exists_roots_iff : (∃ roots, changes.roots s = .ok roots)
    ↔ ∀ p ∈ changes.pending, ∃ root, changes.root s p = .ok root := by
  rw [← Except.exists_mapM_eq_ok_iff]
  constructor
  · rintro ⟨roots, hroots⟩
    obtain ⟨found, hfound, _⟩ := roots_eq_ok hroots
    exact ⟨found, hfound⟩
  · rintro ⟨found, hfound⟩
    rw [roots, hfound]
    exact ⟨_, rfl⟩

end ChangeSet

open ChangeSet in
/-- **Roots are found along owners, whatever edits made the change set.** Owners have smaller ids,
so that every entry has one line of owners and the loop up that line comes to its end, at the
latest after as many turns as there are ids up to the entry. All roots are found just if every
pending entry has an entry with a document of its own on its line. They are the nearest ones of
those, each once. Otherwise the error names the type of the last entry on the line of the first
pending entry that has none. Entries have types of the schema, which finds them by their names. -/
theorem roots_follow_owners (s : Schema) (edits : List Edit) :
    (∀ e ∈ (made edits).entries, ∀ owner, e.owner = some owner → owner < e.id)
    ∧ (∀ e ∈ (made edits).entries, ∃! line, (made edits).OwnerLine e.id line)
    ∧ (∀ id, (made edits).rootWithin s (id + 1) id = some ((made edits).root s id))
    ∧ ((∃ roots, (made edits).roots s = .ok roots) ↔ ∀ p ∈ (made edits).pending,
      ∃ line, (made edits).OwnerLine p line ∧ ∃ e ∈ line, e.isRoot s)
    ∧ (∀ roots, (made edits).roots s = .ok roots → roots.Pairwise (· < ·)
      ∧ ∀ id, id ∈ roots ↔ ∃ p ∈ (made edits).pending,
        ∃ e, (made edits).NearestRoot s p e ∧ e.id = id)
    ∧ (made edits).pending.Pairwise (· < ·)
    ∧ ∀ error, (made edits).roots s = .error error ↔ ∃ earlier p later last,
      (made edits).pending = earlier ++ p :: later
      ∧ (∀ q ∈ earlier, ∃ e, (made edits).NearestRoot s q e)
      ∧ (made edits).Orphaned s p last
      ∧ error = .orphanedEntity last.entityType.name := by
  have h : (made edits).Ordered fun _ => True := ordered_made fun _ _ _ _ => trivial
  have hknown : ∀ p ∈ (made edits).pending, ∃ e ∈ (made edits).entries, e.id = p :=
    fun p hp => exists_of_mem_pending hp
  refine ⟨fun e he owner => h.owner_lt he, ?_, fun id => h.rootWithin_eq (Nat.lt_succ_self id), ?_,
    ?_, h.numbered.pending_ascending, ?_⟩
  · intro e he
    obtain ⟨line, hline⟩ := h.exists_line (h.numbered.entry?_id he)
    exact ⟨line, hline, fun _ h' => h'.unique hline⟩
  · rw [exists_roots_iff]
    refine forall₂_congr fun p _ => ?_
    rw [← exists_nearestRoot_iff]
    exact h.exists_root_iff
  · intro roots hroots
    refine ⟨roots_ascending hroots, fun id => ?_⟩
    rw [h.numbered.mem_roots_iff hroots]
    refine exists_congr fun p => and_congr_right fun _ => h.root_eq_ok_iff
  · intro error
    rw [roots_eq_error_iff, Except.mapM_eq_error_iff]
    constructor
    · -- the first pending entry without a root is an entry, so that it has a line and a last owner
      rintro ⟨earlier, p, later, hpending, hearlier, hp⟩
      obtain ⟨e, he, rfl⟩ := hknown p (hpending ▸ List.mem_append_right _ List.mem_cons_self)
      obtain ⟨last, hlast, rfl⟩ := (h.root_eq_error_iff he).mp hp
      exact ⟨earlier, e.id, later, last, hpending,
        fun q hq => h.exists_root_iff.mp (hearlier q hq), hlast, rfl⟩
    · rintro ⟨earlier, p, later, last, hpending, hearlier, hlast, rfl⟩
      obtain ⟨e, he, rfl⟩ := hknown p (hpending ▸ List.mem_append_right _ List.mem_cons_self)
      exact ⟨earlier, e.id, later, hpending, fun q hq => h.exists_root_iff.mpr (hearlier q hq),
        (h.root_eq_error_iff he).mpr ⟨last, hlast, rfl⟩⟩

/-! ## Families in all states -/

/-- A family is tracked. -/
def trackFamily (state : EntityState) (key : Int) : ChangeSet.Edit :=
  .track newFamily.entityType state [("Id", .int key)]

/-- What another entry owns is tracked, with the type and the values that an entry has. -/
def trackPart (owner : Nat) (state : EntityState) (e : Entry) : ChangeSet.Edit :=
  .trackOwned owner e.entityType state e.current

/-- A family and its child are saved, and the child gets a toy. A second family is loaded, whose
home is changed, then a third one, which is deleted. A fourth one is let go. -/
def familyEdits : List ChangeSet.Edit :=
  [trackFamily .added 1, trackPart 0 .added (childNamed 1 "Ada"), .acceptAll,
    trackPart 1 .added (toyOf 1 2),
    trackFamily .unchanged 2, trackPart 3 .modified (homeIn 4 "Rome"),
    trackFamily .unchanged 3, .setState 5 .deleted,
    trackFamily .detached 4]

/-- A family is deleted. A child without a family is unchanged, but gets a toy. -/
def strayEdits : List ChangeSet.Edit :=
  [trackFamily .deleted 1,
    .track (childNamed 1 "Ada").entityType .unchanged [("Name", .str "Ada")],
    trackPart 1 .added (toyOf 1 2)]

open ChangeSet in
/-- Added, modified and deleted entries are pending, each with the family that it belongs to. The
toy of a stray child has no root, and it is the child that the error names. -/
theorem roots_follow_owners_families :
    householdModel.finish (Convention.defaults .typeName) = .ok household
    ∧ (made familyEdits).entries.map (·.state)
      = [.unchanged, .unchanged, .added, .unchanged, .modified, .deleted, .detached]
    ∧ (made familyEdits).pending = [2, 4, 5]
    ∧ (made familyEdits).roots household = .ok [0, 3, 5]
    ∧ (∀ id, id ∈ [0, 3, 5] ↔ ∃ p ∈ (made familyEdits).pending,
      ∃ e, (made familyEdits).NearestRoot household p e ∧ e.id = id)
    ∧ (made strayEdits).pending = [0, 2]
    ∧ ∃ earlier p later last,
      (made strayEdits).pending = earlier ++ p :: later
      ∧ (∀ q ∈ earlier, ∃ e, (made strayEdits).NearestRoot household q e)
      ∧ (made strayEdits).Orphaned household p last
      ∧ SaveError.orphanedEntity "Child" = .orphanedEntity last.entityType.name := by
  have hfamilies : (made familyEdits).roots household = .ok [0, 3, 5] := rfl
  have hstray : (made strayEdits).roots household = .error (.orphanedEntity "Child") := rfl
  obtain ⟨_, _, _, _, hroots, _, _⟩ := roots_follow_owners household familyEdits
  obtain ⟨_, _, _, _, _, _, herror⟩ := roots_follow_owners household strayEdits
  exact ⟨finish_householdModel, rfl, rfl, hfamilies, (hroots _ hfamilies).2, rfl,
    (herror _).mp hstray⟩

end Odm
