import Mathlib.Logic.Relation
import Odm.Proofs.Update.Placement

/-!
# What is embedded

Where an entry is composed into the document of another one can be seen by giving it one document
after the other: it is *composed at* a path if the other document holds at that path whatever is
given. Along a line of owners the path is made up of places, one for each owner. What an entry
owns comes after it, so of what an owner owns only one entry is above another one, and the
documents of the rest do not depend on that one.
-/

namespace Odm

namespace ChangeSet

variable {s : Schema} {changes : ChangeSet}

/-! ## Composition with one document given -/

/-- The document of an entry, when the document of another one is given. -/
def composeWith (s : Schema) (changes : ChangeSet) (part : Nat) (given : Document) (id : Nat) :
    Except UpdateError Document :=
  match (composeGiven s (.only part given) changes.entries)[id]? with
  | some (_, document) => document
  | none => .error (.unknownEntry id)

/-- An entry is composed into the document of another one at a path: whatever its document is,
the other document holds it there. -/
def ComposedAt (s : Schema) (changes : ChangeSet) (top part : Entry)
    (path : List Value.Step) : Prop :=
  ∀ given : Document, ∃ document, changes.composeWith s part.id given top.id = .ok document
    ∧ document.toValue.follow? path = some given.toValue

theorem composeGiven_self {id : Nat} {given : Document} : ∀ {entries : List Entry},
    (∀ (i : Nat) (e : Entry), entries[i]? = some e → e.id = id →
      (composeEntries s entries)[i]? = some (e, .ok given)) →
    composeGiven s (.only id given) entries = composeEntries s entries := by
  intro entries
  induction entries with
  | nil => exact fun _ => rfl
  | cons e rest ih =>
    intro h
    rw [composeGiven, composeEntries, ih fun i e' he' => h (i + 1) e' he']
    by_cases hid : e.id = id
    · have hself := h 0 e rfl hid
      rw [composeEntries, List.getElem?_cons_zero] at hself
      rw [hid, Given.only_self]
      exact congrArg (· :: _) (Option.some.inj hself).symm
    · rw [Given.only_ne hid]

theorem getElem?_composeEntries {i : Nat} {e : Entry} {document : Document}
    (he : changes.entry? i = some e) (h : changes.compose s i = .ok document) :
    (composeEntries s changes.entries)[i]? = some (e, .ok document) := by
  have hfst : (composeEntries s changes.entries).map Prod.fst = changes.entries := by
    rw [← composeGiven_nothing, map_fst_composeGiven]
  have hentry : ((composeEntries s changes.entries).map Prod.fst)[i]? = some e := by
    rw [hfst]
    exact he
  rw [List.getElem?_map] at hentry
  obtain ⟨⟨e', _⟩, hcomposed, rfl⟩ := Option.map_eq_some_iff.mp hentry
  unfold compose at h
  rw [hcomposed] at h ⊢
  rw [← h]

/-- Giving an entry the document that it has changes nothing. -/
theorem Tracked.composeWith_self (h : changes.Tracked s) {part id : Nat} {given : Document}
    (hpart : changes.compose s part = .ok given) :
    changes.composeWith s part given id = changes.compose s id := by
  have hsame : composeGiven s (.only part given) changes.entries
      = composeEntries s changes.entries := by
    refine composeGiven_self fun i e he hid => ?_
    cases (h.id i e he).symm.trans hid
    exact getElem?_composeEntries he hpart
  rw [composeWith, hsame]
  rfl

/-- **At the path where an entry is composed stands its document.** -/
theorem ComposedAt.follow? (h : changes.Tracked s) {top part : Entry} {path : List Value.Step}
    (hcomposed : changes.ComposedAt s top part path) {given : Document}
    (hpart : changes.compose s part.id = .ok given) :
    ∃ document, changes.compose s top.id = .ok document
      ∧ document.toValue.follow? path = some given.toValue := by
  rw [← h.composeWith_self hpart]
  exact hcomposed given

/-! ## Lines of owners -/

/-- An entry is owned by another one of the change set. -/
def OwnedBy (changes : ChangeSet) (part owner : Entry) : Prop :=
  part ∈ changes.entries ∧ owner ∈ changes.entries ∧ part.owner = some owner.id

instance (changes : ChangeSet) (part owner : Entry) : Decidable (changes.OwnedBy part owner) :=
  inferInstanceAs (Decidable (_ ∧ _ ∧ _))

/-- An entry, what owns it, what owns that, and so on. -/
def Above (changes : ChangeSet) (part : Entry) : Entry → Prop :=
  Relation.ReflTransGen changes.OwnedBy part

variable {part owner e e' : Entry}

theorem Above.mem (h : changes.Above part e) (he : e ∈ changes.entries) :
    part ∈ changes.entries := by
  rcases Relation.ReflTransGen.cases_head h with rfl | ⟨_, hown, _⟩
  · exact he
  · exact hown.1

theorem Tracked.eq_of_id (h : changes.Tracked s) (he : e ∈ changes.entries)
    (he' : e' ∈ changes.entries) (hid : e.id = e'.id) : e = e' := by
  have hentry := h.entry?_id he
  rw [hid, h.entry?_id he'] at hentry
  exact (Option.some.inj hentry).symm

theorem Tracked.lt_of_ownedBy (h : changes.Tracked s) (hown : changes.OwnedBy part owner) :
    owner.id < part.id := h.owner part hown.1 _ hown.2.2

theorem Tracked.le_of_above (h : changes.Tracked s) (habove : changes.Above part e) :
    e.id ≤ part.id := by
  induction habove with
  | refl => exact Nat.le_refl _
  | tail _ hown ih => exact Nat.le_trans (Nat.le_of_lt (h.lt_of_ownedBy hown)) ih

/-- Of what an entry owns, only one is the given entry or above it. -/
theorem Tracked.eq_of_above (h : changes.Tracked s) (he : changes.OwnedBy e owner)
    (he' : changes.OwnedBy e' owner) (habove : changes.Above part e)
    (habove' : changes.Above part e') : e = e' := by
  have hunique : Relator.RightUnique changes.OwnedBy := by
    intro x y z hy hz
    refine h.eq_of_id hy.2.1 hz.2.1 (Option.some.inj ?_)
    rw [← hy.2.2, hz.2.2]
  have hcases : ∀ x y, changes.OwnedBy x owner → changes.OwnedBy y owner →
      changes.Above x y → x = y := by
    intro x y hx hy hxy
    rcases Relation.ReflTransGen.cases_head hxy with heq | ⟨z, hz, hzy⟩
    · exact heq
    · -- above `x` there is only its owner, which comes before all that it owns
      have hle := h.le_of_above hzy
      have hlt := h.lt_of_ownedBy hy
      rw [hunique hz hx] at hle
      omega
  -- an entry has one owner, so of two entries above `part` one is above the other
  rcases Relation.ReflTransGen.total_of_right_unique hunique habove habove' with hbetween | hbetween
  · exact hcases e e' he he' hbetween
  · exact (hcases e' e he' he hbetween).symm

/-- The documents of entries that are not above an entry do not depend on it. -/
theorem Tracked.documentOf_only (h : changes.Tracked s) (he : e ∈ changes.entries)
    (hpart : part ∈ changes.entries) (habove : ¬ changes.Above part e) (given given' : Document) :
    changes.documentOf s (.only part.id given) e.id
      = changes.documentOf s (.only part.id given') e.id := by
  -- by induction on the number of entries from `e` on, since what it owns comes after it
  obtain ⟨n, hn⟩ : ∃ n, changes.count - e.id = n := ⟨_, rfl⟩
  induction n using Nat.strongRecOn generalizing e with
  | ind n ih =>
    have hne : e.id ≠ part.id := by
      intro hid
      rw [h.eq_of_id he hpart hid] at habove
      exact habove .refl
    have hentry := h.entry?_id he
    rw [h.documentOf_eq hentry, h.documentOf_eq hentry, Given.only_ne hne, Given.only_ne hne]
    refine Entry.document_congr fun k => ?_
    rw [h.partsOf_layout, h.partsOf_layout]
    refine List.map_congr_left fun p hp => ?_
    obtain ⟨hmem, hleads⟩ := List.mem_filter.mp hp
    simp only [Entry.leadsTo, Bool.and_eq_true, decide_eq_true_eq] at hleads
    have hown : changes.OwnedBy p e := ⟨hmem, he, hleads.1.1⟩
    have hlt := h.lt_of_ownedBy hown
    have hcount : p.id < changes.count := (List.getElem?_eq_some_iff.mp (h.entry?_id hmem)).1
    exact congrArg (Prod.mk p) (ih (changes.count - p.id) (by omega) hmem
      (fun hp => habove (Relation.ReflTransGen.tail hp hown)) rfl)

/-- The paths that places make up along a line of entries, from an owner downwards. -/
inductive Placed (s : Schema) (changes : ChangeSet) :
    Entry → List Entry → List Value.Step → Prop where
  | here {e : Entry} : Placed s changes e [] []
  | through {e part : Entry} {line : List Entry} {place path : List Value.Step} :
    Place s changes e part place → Placed s changes part line path →
    Placed s changes e (part :: line) (place ++ path)

/-- An entry at the end of a line of owners has the first one above it. -/
theorem above_of_line {top : Entry} {line : List Entry}
    (hline : List.IsChain (fun owner part => changes.OwnedBy part owner) (top :: line))
    (hlast : (top :: line).getLast? = some part) : changes.Above part top := by
  induction line generalizing top with
  | nil =>
    cases hlast
    exact .refl
  | cons e rest ih =>
    obtain ⟨hown, hrest⟩ := List.isChain_cons_cons.mp hline
    rw [List.getLast?_cons_cons] at hlast
    exact Relation.ReflTransGen.tail (ih hrest hlast) hown

/-- The ends of a line of owners are tracked. -/
theorem mem_of_line {top : Entry} {between : List Entry}
    (hline : List.IsChain (fun owner part => changes.OwnedBy part owner)
      (top :: (between ++ [part]))) : top ∈ changes.entries ∧ part ∈ changes.entries := by
  have hlast : (top :: (between ++ [part])).getLast? = some part := by
    rw [← List.cons_append, List.getLast?_concat]
  have htop : top ∈ changes.entries := by
    cases between with
    | nil => exact (List.isChain_cons_cons.mp hline).1.2.1
    | cons => exact (List.isChain_cons_cons.mp hline).1.2.1
  exact ⟨htop, (above_of_line hline hlast).mem htop⟩

/-- **Places make up the paths.** Along a line of owners, the document of the first holds the
given document of the last exactly at the paths that places make up. -/
theorem Tracked.follow?_iff_placed (h : changes.Tracked s) {line : List Entry} :
    ∀ {top : Entry} {path : List Value.Step}, top ∈ changes.entries →
      List.IsChain (fun owner part => changes.OwnedBy part owner) (top :: line) →
      (top :: line).getLast? = some part →
      ((∀ given : Document, (changes.documentOf s (.only part.id given) top.id).toValue.follow? path
          = some given.toValue)
        ↔ Placed s changes top line path) := by
  induction line with
  | nil =>
    intro top path htop _ hlast
    cases Option.some.inj (List.getLast?_singleton.symm.trans hlast)
    have hself : ∀ given : Document,
        changes.documentOf s (.only part.id given) part.id = given := by
      intro given
      rw [h.documentOf_eq (h.entry?_id htop), Given.only_self, Option.getD_some]
    simp only [hself]
    constructor
    · intro hpath
      cases path with
      | nil => exact .here
      | cons step rest => cases step <;> cases hpath []
    · intro hplaced
      cases hplaced
      exact fun _ => rfl
  | cons next rest ih =>
    intro top path htop hline hlast
    obtain ⟨hown, hrest⟩ := List.isChain_cons_cons.mp hline
    rw [List.getLast?_cons_cons] at hlast
    have habove := above_of_line hrest hlast
    have hpart := habove.mem hown.1
    have hne : top.id ≠ part.id := by
      have hlt := h.lt_of_ownedBy hown
      have hle := h.le_of_above habove
      omega
    have hdocument : ∀ given : Document, changes.documentOf s (.only part.id given) top.id
        = top.document s (changes.family
          (fun given e => changes.documentOf s (.only part.id given) e.id) given) :=
      fun given => h.documentOf_entries htop (Given.only_ne hne given)
    -- of what `top` owns only `next` is above the given entry
    have hconst : ∀ e ∈ changes.entries, e.owner = some top.id → e ≠ next →
        ∀ given given', changes.documentOf s (.only part.id given) e.id
          = changes.documentOf s (.only part.id given') e.id := by
      intro e he heowner hne given given'
      refine h.documentOf_only he hpart (fun heabove => hne ?_) given given'
      exact h.eq_of_above ⟨he, htop, heowner⟩ hown heabove habove
    simp only [hdocument]
    constructor
    · intro hpath
      obtain ⟨place, tail, hplace, rfl, htail⟩ := exists_place hconst hpath
      exact .through hplace ((ih hown.1 hrest hlast).mp htail)
    · intro hplaced
      cases hplaced with
      | through hplace hplaced =>
        intro given
        rw [Value.follow?_append, hplace.follow?]
        exact (ih hown.1 hrest hlast).mpr hplaced given

/-! ## One path or none -/

/-- A path along a line of owners exists where each owner has an element that takes the next
entry. -/
theorem exists_placed_iff {line : List Entry} : ∀ {top : Entry},
    List.IsChain (fun owner part => changes.OwnedBy part owner) (top :: line) →
    ((∃ path, Placed s changes top line path)
      ↔ List.IsChain (fun owner part => ∃ element, changes.Takes s owner part element)
        (top :: line)) := by
  induction line with
  | nil =>
    intro top _
    exact iff_of_true ⟨[], .here⟩ (.singleton top)
  | cons next rest ih =>
    intro top hline
    obtain ⟨hown, hrest⟩ := List.isChain_cons_cons.mp hline
    -- the first step is that of `top`, and the rest is a path from the next entry on
    rw [List.isChain_cons_cons, ← ih hrest]
    constructor
    · rintro ⟨path, hplaced⟩
      cases hplaced with
      | through hplace hplaced =>
        obtain ⟨element, tail, rfl⟩ := hplace.eq_field
        exact ⟨⟨element, (takes_iff_place hown.1 element).mpr ⟨_, hplace⟩⟩, _, hplaced⟩
    · rintro ⟨⟨element, htakes⟩, path, hplaced⟩
      obtain ⟨tail, hplace⟩ := (takes_iff_place hown.1 element).mp htakes
      exact ⟨_, .through hplace hplaced⟩

/-- There is at most one path along a line of owners of which none has two elements that take
the next entry. -/
theorem Placed.eq_of_unique (h : changes.Tracked s) {top : Entry} {line : List Entry}
    {path path' : List Value.Step}
    (hline : List.IsChain (fun owner part => changes.OwnedBy part owner) (top :: line))
    (hunique : List.IsChain (fun owner part => ∃! element, changes.Takes s owner part element)
      (top :: line))
    (hplaced : Placed s changes top line path) (hplaced' : Placed s changes top line path') :
    path = path' := by
  induction hplaced generalizing path' with
  | here =>
    cases hplaced'
    rfl
  | through hplace _ ih =>
    cases hplaced' with
    | through hplace' hplaced' =>
      obtain ⟨hown, hline⟩ := List.isChain_cons_cons.mp hline
      obtain ⟨htakes, hunique⟩ := List.isChain_cons_cons.mp hunique
      -- paths start with the elements that take, and those are the same
      obtain ⟨element, tail, rfl⟩ := hplace.eq_field
      obtain ⟨element', tail', rfl⟩ := hplace'.eq_field
      cases htakes.unique ((takes_iff_place hown.1 element).mpr ⟨_, hplace⟩)
        ((takes_iff_place hown.1 element').mpr ⟨_, hplace'⟩)
      rw [hplace.eq_of_field h hplace', ih hline hunique hplaced']

/-- **Where an entry is composed into the document of another one**: at the paths that places
make up along the line of owners between them. -/
theorem Tracked.composedAt_iff (h : changes.Tracked s) (hs : s.KnowsTargets) {top : Entry}
    {between : List Entry} {path : List Value.Step}
    (hline : List.IsChain (fun owner part => changes.OwnedBy part owner)
      (top :: (between ++ [part]))) :
    changes.ComposedAt s top part path ↔ Placed s changes top (between ++ [part]) path := by
  have htop := (mem_of_line hline).1
  have hlast : (top :: (between ++ [part])).getLast? = some part := by
    rw [← List.cons_append, List.getLast?_concat]
  rw [← h.follow?_iff_placed htop hline hlast]
  refine forall_congr' fun given => ?_
  rw [composeWith, getElem?_composeGiven hs (h.entry?_id htop)]
  constructor
  · rintro ⟨document, hdocument, hfollow⟩
    cases hdocument
    exact hfollow
  · exact fun hfollow => ⟨_, rfl, hfollow⟩

end ChangeSet

/-! ## Embedding -/

/-- **An entry is embedded where its owners take it.** Every tracked entry has a document, and
where an entry below it is composed into that document, the document of that entry is found. Along
the line of owners between them the entry is composed at some path just if each owner has an
element that takes the next entry, and at a single one if each has a single such element. -/
theorem composed_where_taken {m : Model} {naming : CollectionNaming} {s : Schema}
    {changes : ChangeSet} {top part : Entry} {between : List Entry}
    (hs : m.finish (Convention.defaults naming) = .ok s) (hchanges : changes.Tracked s)
    (hline : List.IsChain (fun owner part => changes.OwnedBy part owner)
      (top :: (between ++ [part]))) :
    (∃ document partDocument, changes.compose s top.id = .ok document
      ∧ changes.compose s part.id = .ok partDocument
      ∧ ∀ path, changes.ComposedAt s top part path →
        document.toValue.follow? path = some partDocument.toValue)
    ∧ ((∃ path, changes.ComposedAt s top part path)
      ↔ List.IsChain (fun owner part => ∃ element, changes.Takes s owner part element)
        (top :: (between ++ [part])))
    ∧ (List.IsChain (fun owner part => ∃! element, changes.Takes s owner part element)
        (top :: (between ++ [part]))
      → ∃! path, changes.ComposedAt s top part path) := by
  have hknows := (Model.finish_ownsTargets hs).knowsTargets
  obtain ⟨htop, hpart⟩ := ChangeSet.mem_of_line hline
  have hplaced : ∀ path, changes.ComposedAt s top part path
      ↔ ChangeSet.Placed s changes top (between ++ [part]) path :=
    fun _ => hchanges.composedAt_iff hknows hline
  refine ⟨?_, ?_, ?_⟩
  · -- both documents exist, since the targets of owning navigations are known
    have hdocument := ChangeSet.compose_eq_documentOf hknows (hchanges.entry?_id htop)
    have hpartDocument := ChangeSet.compose_eq_documentOf hknows (hchanges.entry?_id hpart)
    refine ⟨_, _, hdocument, hpartDocument, ?_⟩
    intro path hcomposed
    obtain ⟨document, hdocument', hfollow⟩ := hcomposed.follow? hchanges hpartDocument
    cases hdocument.symm.trans hdocument'
    exact hfollow
  · rw [← ChangeSet.exists_placed_iff hline]
    exact exists_congr hplaced
  · intro hunique
    obtain ⟨path, hpath⟩ := (ChangeSet.exists_placed_iff hline).mpr
      (hunique.imp fun _ _ htakes => htakes.exists)
    refine ⟨path, (hplaced path).mpr hpath, ?_⟩
    -- a second path would have to take the entries by other elements
    intro path' hpath'
    exact ((hplaced path').mp hpath').eq_of_unique hchanges hline hunique hpath

/-! ## A household -/

/-- Families with their addresses and children, as their author writes them down. -/
def householdModel : Model where
  types := [
    { name := "Address"
      properties := [⟨"City", "Address", .string, none, false, false, none⟩] },
    { name := "Child"
      properties := [⟨"Name", "Child", .string, none, false, false, none⟩]
      navigations := [⟨"Toys", "Child", "Toy", true, true⟩] },
    { name := "Family"
      properties := [⟨"Id", "Family", .int32, none, false, false, none⟩]
      navigations := [⟨"Home", "Family", "Address", false, true⟩,
        ⟨"Children", "Family", "Child", true, true⟩] },
    { name := "Toy"
      properties := [⟨"Label", "Toy", .string, none, false, false, none⟩] }]

/-- Families with their addresses and children. -/
def household : Schema where
  types := [
    { name := "Address"
      isOwned := true
      isComplex := true
      discriminatorValue := some "Address"
      ownership := some ⟨"Family", "Home", false⟩
      properties := [⟨"City", "Address", .string, none, false, false, none⟩] },
    { name := "Child"
      isOwned := true
      isComplex := true
      discriminatorValue := some "Child"
      ownership := some ⟨"Family", "Children", true⟩
      properties := [⟨"Name", "Child", .string, none, false, false, none⟩]
      navigations := [⟨"Toys", "Child", "Toy", true, true⟩] },
    { name := "Family"
      collection := some "Family"
      discriminatorValue := some "Family"
      key := some ["Id"]
      properties := [⟨"Id", "Family", .int32, some "_id", false, false, some .onAdd⟩]
      navigations := [⟨"Home", "Family", "Address", false, true⟩,
        ⟨"Children", "Family", "Child", true, true⟩] },
    { name := "Toy"
      isOwned := true
      isComplex := true
      discriminatorValue := some "Toy"
      ownership := some ⟨"Child", "Toys", true⟩
      properties := [⟨"Label", "Toy", .string, none, false, false, none⟩] }]
  discriminatorElement := "_t"

theorem finish_householdModel :
    householdModel.finish (Convention.defaults .typeName) = .ok household := rfl

/-- A new family. -/
def newFamily : Entry :=
  ⟨0, household.types.get ⟨2, by decide⟩, .added, [("Id", .int 1)], [], none⟩

/-- A home of the family. -/
def homeIn (id : Nat) (city : String) : Entry :=
  ⟨id, household.types.get ⟨0, by decide⟩, .added, [("City", .str city)], [], some 0⟩

/-- A child of the family. -/
def childNamed (id : Nat) (name : String) : Entry :=
  ⟨id, household.types.get ⟨1, by decide⟩, .added, [("Name", .str name)], [], some 0⟩

/-- A toy of a child. -/
def toyOf (child id : Nat) : Entry :=
  ⟨id, household.types.get ⟨3, by decide⟩, .added, [("Label", .str "ball")], [], some child⟩

/-- A family with two homes and two children, of whom the younger one has a toy. -/
def householdChanges : ChangeSet where
  entries := [newFamily, homeIn 1 "Rome", homeIn 2 "Oslo", childNamed 3 "Ada", childNamed 4 "Bo",
    toyOf 4 5]

theorem tracked_householdChanges : householdChanges.Tracked household where
  id i e he := by
    match i with
    | 0 | 1 | 2 | 3 | 4 | 5 =>
      cases he
      rfl
    | i + 6 => cases he
  owner := by decide
  entityType := by decide

/-- The toy of the younger child is embedded exactly once. -/
theorem composed_where_taken_toy :
    householdModel.finish (Convention.defaults .typeName) = .ok household
      ∧ householdChanges.Tracked household
      ∧ List.IsChain (fun owner part => householdChanges.OwnedBy part owner)
        [newFamily, childNamed 4 "Bo", toyOf 4 5]
      ∧ ∃! path, householdChanges.ComposedAt household newFamily (toyOf 4 5) path := by
  have hline : List.IsChain (fun owner part => householdChanges.OwnedBy part owner)
      (newFamily :: ([childNamed 4 "Bo"] ++ [toyOf 4 5])) := by decide
  refine ⟨finish_householdModel, tracked_householdChanges, hline, ?_⟩
  refine (composed_where_taken finish_householdModel tracked_householdChanges hline).2.2 ?_
  have hchild : ∃! element,
      householdChanges.Takes household newFamily (childNamed 4 "Bo") element :=
    ChangeSet.existsUnique_takes (n := ⟨"Children", "Family", "Child", true, true⟩) (by decide)
      rfl (by decide) rfl (by decide) (by decide) nofun
  have htoy : ∃! element,
      householdChanges.Takes household (childNamed 4 "Bo") (toyOf 4 5) element :=
    ChangeSet.existsUnique_takes (n := ⟨"Toys", "Child", "Toy", true, true⟩) (by decide)
      rfl (by decide) rfl (by decide) (by decide) nofun
  exact .cons_cons hchild (.cons_cons htoy (.singleton _))

/-- Of two homes the second is embedded nowhere, though it is stored. -/
theorem second_home_left_out :
    householdModel.finish (Convention.defaults .typeName) = .ok household
      ∧ householdChanges.Tracked household
      ∧ household.isDocumentRoot newFamily.entityType.name
      ∧ householdChanges.OwnedBy (homeIn 2 "Oslo") newFamily
      ∧ (homeIn 2 "Oslo").state.isStored
      ∧ ¬ ∃ path, householdChanges.ComposedAt household newFamily (homeIn 2 "Oslo") path := by
  have hknows := (Model.finish_ownsTargets finish_householdModel).knowsTargets
  have hline : List.IsChain (fun owner part => householdChanges.OwnedBy part owner)
      (newFamily :: ([] ++ [homeIn 2 "Oslo"])) := by decide
  refine ⟨finish_householdModel, tracked_householdChanges, rfl, by decide, rfl, ?_⟩
  rintro ⟨path, hcomposed⟩
  have hplaced := (tracked_householdChanges.composedAt_iff hknows hline).mp hcomposed
  have htaken := (ChangeSet.exists_placed_iff hline).mp ⟨path, hplaced⟩
  obtain ⟨element, htakes⟩ := (List.isChain_cons_cons.mp htaken).1
  obtain ⟨n, hn, _, _, hleads, hfirst⟩ := htakes.exists_navigation
  -- the only navigation that leads to a home is a reference, and leads to the other one first
  have hother : ∀ n ∈ household.navigations "Family",
      newFamily.leadsTo household n (homeIn 2 "Oslo") →
        n.isCollection = false
          ∧ householdChanges.entries.find? (newFamily.leadsTo household n)
            = some (homeIn 1 "Rome") := by decide
  obtain ⟨href, hrome⟩ := hother n hn hleads
  cases hrome.symm.trans (hfirst href)

end Odm
