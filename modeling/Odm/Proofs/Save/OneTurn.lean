import Odm.Proofs.Save.Preparation

/-!
# One turn for each root

The roots of a save are listed once each, and each is in the group of one collection. So no entry
has two turns, in whatever batches they are. A turn changes no entry but its own. Hence an entry
comes to its turn as it was before the save, and leaves the save as its turn has left it; and an
entry that is stored in documents of its own has a turn of its own whenever it is pending.
-/

namespace Odm

/-! ## Roots of their own -/

namespace ChangeSet

variable {s : Schema} {changes : ChangeSet}

/-- **An entry with documents of its own is its own root.** -/
theorem Numbered.root_eq (h : changes.Numbered) {id : Nat} {e : Entry}
    (he : changes.entry? id = some e) (hstored : s.isDocumentRoot e.entityType.name) :
    changes.root s id = .ok id := by
  rw [h.root_eq_climb he, climb, if_neg (not_not_intro (h id e he)), if_pos hstored]

theorem Numbered.mem_pending (h : changes.Numbered) {id : Nat} {e : Entry}
    (he : changes.entry? id = some e) (hpending : e.state.isPending) : id ∈ changes.pending := by
  rw [← h id e he]
  exact List.mem_map_of_mem (List.mem_filter.mpr ⟨List.mem_of_getElem? he, hpending⟩)

/-- What has the outlines of a tracked change set is tracked. -/
theorem Tracked.of_outlines {changes' : ChangeSet} (h : changes.Tracked s)
    (hout : changes'.outlines = changes.outlines) : changes'.Tracked s := by
  -- entries are the same but for their values and states, which tracking does not ask about
  have hbefore : ∀ e' ∈ changes'.entries, ∃ e ∈ changes.entries, e'.outline = e.outline := by
    intro e' he'
    obtain ⟨i, hi⟩ := List.mem_iff_getElem?.mp he'
    obtain ⟨e, he, hsame⟩ := entry?_of_outlines hout hi
    exact ⟨e, List.mem_of_getElem? he, hsame⟩
  refine ⟨?_, ?_, ?_⟩
  · intro i e' he'
    obtain ⟨e, he, hsame⟩ := entry?_of_outlines hout he'
    exact (Entry.id_of_outline hsame).trans (h.id i e he)
  · intro e' he' o ho
    obtain ⟨e, he, hsame⟩ := hbefore e' he'
    rw [Entry.id_of_outline hsame]
    exact h.owner e he o ((Entry.owner_of_outline hsame).symm.trans ho)
  · intro e' he'
    obtain ⟨e, he, hsame⟩ := hbefore e' he'
    rw [Entry.entityType_of_outline hsame]
    exact h.entityType e he

end ChangeSet

/-! ## Entries and turns -/

/-- A turn changes no entry but its own. -/
theorem Written.entry?_ne {s : Schema} {unit unit' : UnitOfWork} {id other : Nat} {e : Entry}
    {directive : Directive} (h : Written s unit id e directive unit') (hne : id ≠ other) :
    unit'.changes.entry? other = unit.changes.entry? other := by
  cases h with
  | inserted _ _ hchanges _ => rw [hchanges, ChangeSet.entry?_modify_ne _ hne]
  | replaced _ _ hchanges _ _ => rw [hchanges, ChangeSet.entry?_modify_ne _ hne]
  | deleted _ _ hchanges => rw [hchanges]

namespace Turns

variable {s : Schema} {unit unit' : UnitOfWork} {turns : List Turn}

/-- An entry without a turn stays as it is. -/
theorem entry?_eq (h : Turns s unit turns unit') {id : Nat} (hid : id ∉ turns.map (·.id)) :
    unit'.changes.entry? id = unit.changes.entry? id := by
  induction h with
  | nil => rfl
  | cons hdirective _ ih =>
    rw [List.map_cons, List.mem_cons, not_or] at hid
    obtain ⟨_, _, hwritten⟩ := UnitOfWork.directive_written hdirective
    rw [ih hid.2, hwritten.entry?_ne (Ne.symm hid.1)]

/-- An entry without a turn is the same after each of them. -/
theorem entry?_after (h : Turns s unit turns unit') {turn : Turn} (hturn : turn ∈ turns) {id : Nat}
    (hid : id ∉ turns.map (·.id)) :
    turn.after.changes.entry? id = unit.changes.entry? id := by
  induction h with
  | nil => cases hturn
  | cons hdirective _ ih =>
    rw [List.map_cons, List.mem_cons, not_or] at hid
    obtain ⟨_, _, hwritten⟩ := UnitOfWork.directive_written hdirective
    have hfirst := hwritten.entry?_ne (Ne.symm hid.1)
    rcases List.mem_cons.mp hturn with rfl | hlater
    · exact hfirst
    · exact (ih hlater hid.2).trans hfirst

/-- **An entry with one turn** comes to it as it was and stays as it leaves it. -/
theorem entry?_of_mem (h : Turns s unit turns unit') (hnodup : (turns.map (·.id)).Nodup)
    {turn : Turn} (hturn : turn ∈ turns) :
    turn.before.changes.entry? turn.id = unit.changes.entry? turn.id
      ∧ unit'.changes.entry? turn.id = turn.after.changes.entry? turn.id := by
  induction h with
  | nil => cases hturn
  | @cons unit unit₁ _ id directive rest hdirective hrest ih =>
    obtain ⟨hfirst, hnodup⟩ := List.nodup_cons.mp hnodup
    rcases List.mem_cons.mp hturn with rfl | hlater
    · exact ⟨rfl, hrest.entry?_eq hfirst⟩
    · obtain ⟨hbefore, hafter⟩ := ih hnodup hlater
      obtain ⟨_, _, hwritten⟩ := UnitOfWork.directive_written hdirective
      have hne : id ≠ turn.id := fun heq => hfirst (List.mem_map.mpr ⟨turn, hlater, heq.symm⟩)
      exact ⟨hbefore.trans (hwritten.entry?_ne hne), hafter⟩

end Turns

/-! ## Courses -/

namespace Course

variable {s : Schema} {unit mid : UnitOfWork} {course : List (String × List Turn)}

/-- Only roots have turns. -/
theorem mem_roots (h : Course s unit course mid) {roots : List Nat}
    (hroots : unit.changes.roots s = .ok roots) {turn : Turn}
    (hturn : turn ∈ course.flatMap Prod.snd) : turn.id ∈ roots := by
  obtain ⟨⟨collection, turns⟩, hturns, hturn⟩ := List.mem_flatMap.mp hturn
  have hid : turn.id ∈ unit.changes.storedIn s collection roots := by
    rw [(h.storedIn_eq hroots hturns).1]
    exact List.mem_map_of_mem hturn
  exact (List.mem_filter.mp hid).1

/-- **No entry has two turns.** -/
theorem nodup_ids (h : Course s unit course mid) :
    ((course.flatMap Prod.snd).map (·.id)).Nodup := by
  obtain ⟨roots, hroots, _⟩ := ChangeSet.groups_grouped h.groups
  have hids : ∀ group ∈ course,
      unit.changes.storedIn s group.1 roots = group.2.map (·.id) := by
    rintro ⟨collection, turns⟩ hturns
    exact (h.storedIn_eq hroots hturns).1
  rw [List.map_flatMap, List.nodup_flatMap]
  refine ⟨?_, ?_⟩
  · intro group hgroup
    rw [← hids group hgroup]
    exact ((ChangeSet.roots_ascending hroots).imp Nat.ne_of_lt).filter _
  · have hcollections := List.pairwise_map.mp h.nodup_collections
    refine hcollections.imp_of_mem ?_
    intro a b ha hb hne id hida hidb
    -- an entry is stored in one collection
    have hina : id ∈ unit.changes.storedIn s a.1 roots := hids a ha ▸ hida
    have hinb : id ∈ unit.changes.storedIn s b.1 roots := hids b hb ▸ hidb
    have hcollection := of_decide_eq_true (List.mem_filter.mp hina).2
    have hcollection' := of_decide_eq_true (List.mem_filter.mp hinb).2
    exact hne (Option.some.inj (hcollection.symm.trans hcollection'))

/-- **A root comes to its turn as it was before the save, and stays as its turn leaves it.** -/
theorem entry?_turn (h : Course s unit course mid) {collection : String} {turns : List Turn}
    (hturns : (collection, turns) ∈ course) {turn : Turn} (hturn : turn ∈ turns) :
    turn.before.changes.entry? turn.id = unit.changes.entry? turn.id
      ∧ mid.changes.entry? turn.id = turn.after.changes.entry? turn.id :=
  h.turns.entry?_of_mem h.nodup_ids (List.mem_flatMap.mpr ⟨_, hturns, hturn⟩)

/-- The turn of an entry, with what it is before. -/
theorem written_turn (h : Course s unit course mid) {collection : String} {turns : List Turn}
    (hturns : (collection, turns) ∈ course) {turn : Turn} (hturn : turn ∈ turns) :
    ∃ e, unit.changes.entry? turn.id = some e
      ∧ s.collectionName e.entityType.name = .ok collection
      ∧ Written s turn.before turn.id e turn.directive turn.after := by
  obtain ⟨e, he, hcollection, _, hwritten⟩ := h.mem_turn hturns hturn
  rw [(h.entry?_turn hturns hturn).1] at he
  exact ⟨e, he, hcollection, hwritten⟩

/-- **A pending entry with documents of its own has a turn.** -/
theorem exists_turn_of_pending (h : Course s unit course mid)
    (hnumbered : unit.changes.Numbered) {id : Nat} {e : Entry}
    (he : unit.changes.entry? id = some e) (hpending : e.state.isPending)
    (hstored : s.isDocumentRoot e.entityType.name) :
    ∃ collection turns turn, (collection, turns) ∈ course ∧ turn ∈ turns ∧ turn.id = id := by
  obtain ⟨roots, hroots, _⟩ := ChangeSet.groups_grouped h.groups
  have hid : id ∈ roots := (hnumbered.mem_roots_iff hroots).mpr
    ⟨id, hnumbered.mem_pending he hpending, hnumbered.root_eq he hstored⟩
  obtain ⟨collection, earlier, turn, later, hturns, hturn⟩ := h.exists_turn hroots hid
  exact ⟨collection, _, turn, hturns, List.mem_append_right _ List.mem_cons_self, hturn⟩

end Course

end Odm
