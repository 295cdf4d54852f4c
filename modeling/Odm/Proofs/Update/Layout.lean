import Odm.Proofs.Schema.Conventions
import Odm.Proofs.Schema.Inheritance
import Odm.Update.Composition

/-!
# The layout of documents

A document is made by insertions: first the fields of the entry, then its discriminator, then one
insertion for each owning navigation that has something to embed. Where owning navigations have
their targets nothing can fail, and what a document holds under an element is what was inserted
there last.

The document of an entry depends on those of the entries it owns. To see how, documents may be
*given*: `composeGiven` composes entries with the documents of some of them replaced, and with
none given it is the composition as it is.
-/

namespace Odm

/-- Entries with their documents, where all of them could be composed. -/
abbrev Documents := List (Entry × Document)

/-- An entry with its document, as composition hands it on. -/
def composed (p : Entry × Document) : Composed := (p.1, .ok p.2)

/-- The field that the target of a navigation asks for. -/
def Schema.containingName? (s : Schema) (n : Navigation) : Option String :=
  (s.find? n.target).bind (·.embeddedName?)

/-- The element under which a navigation embeds its target. -/
def Schema.elementOf (s : Schema) (n : Navigation) : String := (s.containingName? n).getD n.name

/-! ## Places in values -/

/-- One step into a value. -/
inductive Value.Step where
  | field (name : String)
  | item (index : Nat)
  deriving DecidableEq, Repr

/-- What a value holds at the end of some steps. -/
def Value.follow? : List Step → Value → Option Value
  | [], v => some v
  | .field name :: rest, .obj fields => (Table.get? fields name).bind (follow? rest)
  | .item i :: rest, .arr items => items[i]?.bind (follow? rest)
  | _ :: _, _ => none

theorem Value.follow?_append (path rest : List Value.Step) : ∀ v : Value,
    v.follow? (path ++ rest) = (v.follow? path).bind (follow? rest) := by
  induction path with
  | nil => exact fun _ => rfl
  | cons step path ih =>
    intro v
    cases step with
    | field name =>
      -- only objects have fields
      cases v with
      | obj fields =>
        rw [List.cons_append, follow?, follow?, Option.bind_assoc]
        exact Option.bind_congr fun v _ => ih v
      | _ => rfl
    | item i =>
      cases v with
      -- only arrays have items
      | arr items =>
        rw [List.cons_append, follow?, follow?, Option.bind_assoc]
        exact Option.bind_congr fun v _ => ih v
      | _ => rfl

/-! ## One document -/

namespace Entry

/-- Whether a navigation of an entry leads to another entry that documents contain. -/
def leadsTo (s : Schema) (e : Entry) (n : Navigation) (part : Entry) : Bool :=
  part.owner = some e.id && part.state.isStored && s.isAssignable n.target part.entityType.name

/-- The entries that a navigation leads to, with their documents. -/
def partsOf (s : Schema) (e : Entry) (later : Documents) (n : Navigation) : Documents :=
  later.filter fun p => e.leadsTo s n p.1

/-- Whether an owning navigation leads to anything. -/
def embeds (s : Schema) (e : Entry) (later : Documents) (n : Navigation) : Bool :=
  n.isOwnership && !(e.partsOf s later n).isEmpty

/-- What a navigation embeds: an array of all parts, or the first one. -/
def embedded (s : Schema) (e : Entry) (later : Documents) (n : Navigation) : Value :=
  if n.isCollection then .arr ((e.partsOf s later n).map fun p => p.2.toValue)
  else ((e.partsOf s later n).head?.map fun p => p.2.toValue).getD .null

/-- The document of an entry, made by insertions. -/
def document (s : Schema) (e : Entry) (later : Documents) : Document :=
  (s.navigations e.entityType.name).foldl
    (fun document n =>
      if e.embeds s later n then document.insert (s.elementOf n) (e.embedded s later n)
      else document)
    (e.discriminate s (e.fields s))

variable {s : Schema} {e : Entry} {later : Documents}

theorem parts_composed (n : Navigation) :
    e.parts s n.target (later.map composed) = (e.partsOf s later n).map composed := by
  rw [parts, List.filter_map]
  rfl

theorem mapM_composed (parts : Documents) :
    (parts.map composed).mapM Prod.snd = (.ok (parts.map Prod.snd) : Except UpdateError _) := by
  induction parts with
  | nil => rfl
  | cons p rest ih =>
    rw [List.map_cons, List.mapM_cons, ih]
    rfl

/-- One navigation is embedded by at most one insertion. -/
theorem embed_eq {n : Navigation} (hn : n.isOwnership → (s.find? n.target).isSome)
    (document : Document) :
    e.embed s (later.map composed) document n
      = .ok (if e.embeds s later n then
          document.insert (s.elementOf n) (e.embedded s later n) else document) := by
  unfold embed embeds
  cases hown : n.isOwnership with
  | false => rfl
  | true =>
    -- the target is known, so that neither form of embedding can fail
    obtain ⟨target, htarget⟩ := Option.isSome_iff_exists.mp (hn hown)
    have hname := Catalog.find?_name htarget
    simp only [Catalog.entityType, htarget, Except.mapError_ok, Schema.elementOf,
      Schema.containingName?, embedded, hname,
      parts_composed, bind, Except.bind]
    cases hcollection : n.isCollection with
    | true =>
      simp only [mapM_composed]
      cases e.partsOf s later n with
      | nil => rfl
      | cons p rest =>
        simp [pure, Except.pure]
        rfl
    | false =>
      cases e.partsOf s later n with
      | nil => rfl
      | cons p rest => rfl

/-- **Composition is by insertions**, where owning navigations have their targets. -/
theorem compose_eq (htargets : ∀ n ∈ s.navigations e.entityType.name, n.isOwnership →
      (s.find? n.target).isSome) :
    e.compose s (later.map composed) = .ok (e.document s later) := by
  exact Except.foldlM_eq_ok fun n hn document => embed_eq (htargets n hn) document

/-! ## What is held under an element -/

/-- The navigation that an element holds: the last one that embeds something there. -/
def holder? (s : Schema) (e : Entry) (later : Documents) (element : String) :
    Option Navigation :=
  (s.navigations e.entityType.name).reverse.find? fun n =>
    e.embeds s later n && s.elementOf n = element

/-- **A document holds under an element what its last navigation there embeds**, and without one
the discriminator or a field. -/
theorem get?_document (element : String) :
    (e.document s later).get? element
      = ((e.holder? s later element).map (e.embedded s later)
          <|> (e.discriminate s (e.fields s)).get? element) :=
  Table.get?_foldl_insert _ _ _ _ _ _

/-- A document depends on nothing but the parts that navigations lead to. -/
theorem document_congr {later' : Documents}
    (h : ∀ n, e.partsOf s later n = e.partsOf s later' n) :
    e.document s later = e.document s later' := by
  have hparts : e.partsOf s later = e.partsOf s later' := funext h
  have hembeds : e.embeds s later = e.embeds s later' := by
    funext n
    rw [embeds, embeds, hparts]
  have hembedded : e.embedded s later = e.embedded s later' := by
    funext n
    rw [embedded, embedded, hparts]
  rw [document, document, hembeds, hembedded]

end Entry

/-! ## All documents -/

/-- Documents that are given for some entries, by their ids. -/
abbrev Given := Nat → Option Document

/-- No document is given. -/
def Given.nothing : Given := fun _ => none

/-- The document of one entry is given. -/
def Given.only (id : Nat) (document : Document) : Given :=
  fun i => if i = id then some document else none

theorem Given.only_self (id : Nat) (document : Document) :
    only id document id = some document := if_pos rfl

theorem Given.only_ne {i id : Nat} (h : i ≠ id) (document : Document) :
    only id document i = none := if_neg h

/-- Entries with their documents, some of which are given. -/
def composeGiven (s : Schema) (given : Given) : List Entry → List Composed
  | [] => []
  | e :: rest =>
    let later := composeGiven s given rest
    (e, match given e.id with
      | some document => .ok document
      | none => e.compose s later) :: later

/-- With no documents given, entries are composed as always. -/
theorem composeGiven_nothing (s : Schema) (entries : List Entry) :
    composeGiven s .nothing entries = ChangeSet.composeEntries s entries := by
  induction entries with
  | nil => rfl
  | cons e rest ih =>
    rw [composeGiven, ih, ChangeSet.composeEntries]
    rfl

theorem map_fst_composeGiven (s : Schema) (given : Given) (entries : List Entry) :
    (composeGiven s given entries).map Prod.fst = entries := by
  induction entries with
  | nil => rfl
  | cons e rest ih => rw [composeGiven, List.map_cons, ih]

/-- Entries with their documents, some of which are given and all others made by insertions. -/
def documents (s : Schema) (given : Given) : List Entry → Documents
  | [] => []
  | e :: rest =>
    let later := documents s given rest
    (e, (given e.id).getD (e.document s later)) :: later

variable {s : Schema} {given : Given}

/-- **All documents are made by insertions**, where owning navigations have their targets. -/
theorem composeGiven_eq (hs : s.KnowsTargets) (entries : List Entry) :
    composeGiven s given entries = (documents s given entries).map composed := by
  induction entries with
  | nil => rfl
  | cons e rest ih =>
    rw [composeGiven, ih, documents, List.map_cons]
    cases given e.id with
    | some document => rfl
    | none =>
      dsimp only
      rw [Entry.compose_eq fun n hn hown => hs.isSome hn hown]
      rfl

theorem getElem?_documents (entries : List Entry) (i : Nat) :
    (documents s given entries)[i]? = entries[i]?.map fun e =>
      (e, (given e.id).getD (e.document s ((documents s given entries).drop (i + 1)))) := by
  induction entries generalizing i with
  | nil => rfl
  | cons e rest ih =>
    cases i with
    | zero => rfl
    | succ i => exact ih i

/-! ## Tracked change sets -/

namespace ChangeSet

/-- Ids are positions. -/
def Numbered (changes : ChangeSet) : Prop := ∀ i e, changes.entry? i = some e → e.id = i

/-- What tracking ensures: ids are positions, owners come before what they own, and entity types
are those of the schema. -/
structure Tracked (s : Schema) (changes : ChangeSet) : Prop where
  id : ∀ i e, changes.entry? i = some e → e.id = i
  owner : ∀ e ∈ changes.entries, ∀ o, e.owner = some o → o < e.id
  entityType : ∀ e ∈ changes.entries, s.find? e.entityType.name = some e.entityType

variable {changes changes' : ChangeSet}

theorem Tracked.numbered (h : changes.Tracked s) : changes.Numbered := h.id

/-- An entry is found by its id. -/
theorem Numbered.entry?_id (h : changes.Numbered) {e : Entry} (he : e ∈ changes.entries) :
    changes.entry? e.id = some e := by
  obtain ⟨i, hi⟩ := List.mem_iff_getElem?.mp he
  rw [h i e hi]
  exact hi

/-- The next entry gets the next position, whatever it is an entry for. -/
theorem Numbered.append (h : changes.Numbered) (t : EntityType) (state : EntityState)
    (values : Document) (owner : Option Nat) :
    (changes.append t state values owner).Numbered := by
  intro i e he
  rw [ChangeSet.append, entry?] at he
  rcases Nat.lt_trichotomy i changes.count with hi | rfl | hi
  · rw [List.getElem?_append_left hi] at he
    exact h i e he
  · rw [count, List.getElem?_concat_length] at he
    rw [← Option.some.inj he]
    rfl
  · rw [List.getElem?_eq_none] at he
    · cases he
    · rw [List.length_append]
      exact hi

theorem tracked_empty : Tracked s ⟨[]⟩ where
  id i _ he := nomatch (List.getElem?_nil (i := i)).symm.trans he
  owner _ he := absurd he List.not_mem_nil
  entityType _ he := absurd he List.not_mem_nil

theorem Tracked.append (h : changes.Tracked s) {t : EntityType} {state : EntityState}
    {values : Document} {owner : Option Nat} (ht : s.find? t.name = some t)
    (howner : ∀ o, owner = some o → o < changes.count) :
    (changes.append t state values owner).Tracked s := by
  -- every entry was there before or is the new one
  have hmem : ∀ e ∈ (changes.append t state values owner).entries, e ∈ changes.entries
      ∨ e.id = changes.count ∧ e.owner = owner ∧ e.entityType = t := by
    intro e he
    rcases List.mem_append.mp he with he | he
    · exact .inl he
    · rw [List.mem_singleton.mp he]
      exact .inr ⟨rfl, rfl, rfl⟩
  refine ⟨h.numbered.append t state values owner, ?_, ?_⟩
  · intro e he o ho
    rcases hmem e he with he | ⟨hid, heowner, _⟩
    · exact h.owner e he o ho
    · rw [hid]
      exact howner o (heowner ▸ ho)
  · intro e he
    rcases hmem e he with he | ⟨_, _, htype⟩
    · exact h.entityType e he
    · rw [htype]
      exact ht

theorem Tracked.track (h : changes.Tracked s) {t : EntityType} {state : EntityState}
    {values : Document} (ht : s.find? t.name = some t) :
    (changes.track t state values).2.Tracked s := h.append ht nofun

theorem Tracked.trackOwned (h : changes.Tracked s) {t : EntityType} {state : EntityState}
    {values : Document} {owner id : Nat} (ht : s.find? t.name = some t)
    (hown : changes.trackOwned owner t state values = .ok (id, changes')) :
    changes'.Tracked s := by
  obtain ⟨e, he, hown⟩ := Except.bind_eq_ok_iff.mp hown
  cases Except.pure_eq_ok_iff.mp hown
  refine h.append ht ?_
  intro o ho
  cases ho
  unfold entry at he
  split at he
  · rename_i hentry
    exact (List.getElem?_eq_some_iff.mp hentry).1
  · cases he

/-- All entries with their documents, some of which are given. -/
def layout (s : Schema) (given : Given) (changes : ChangeSet) : Documents :=
  documents s given changes.entries

/-- The document of an entry, made by insertions. -/
def documentOf (s : Schema) (given : Given) (changes : ChangeSet) (id : Nat) : Document :=
  ((changes.layout s given)[id]?.map Prod.snd).getD []

theorem Tracked.entry?_id (h : changes.Tracked s) {e : Entry} (he : e ∈ changes.entries) :
    changes.entry? e.id = some e := h.numbered.entry?_id he

/-- What an entry owns comes after it. -/
theorem Tracked.partsOf_drop (h : changes.Tracked s) (given : Given) {i : Nat} {e : Entry}
    (he : changes.entry? i = some e) (n : Navigation) :
    e.partsOf s ((changes.layout s given).drop (i + 1)) n
      = e.partsOf s (changes.layout s given) n := by
  -- up to `i` nothing is owned by the entry, as owners have smaller ids
  have hbefore : e.partsOf s ((changes.layout s given).take (i + 1)) n = [] := by
    refine List.filter_eq_nil_iff.mpr ?_
    intro p hp hleads
    obtain ⟨j, hj, hget⟩ := List.mem_take_iff_getElem.mp hp
    have hentry : changes.entry? j = some p.1 := by
      have hlayout : (changes.layout s given)[j]? = some p := by
        rw [← hget]
        exact List.getElem?_eq_getElem _
      rw [layout, getElem?_documents] at hlayout
      obtain ⟨e', he', rfl⟩ := Option.map_eq_some_iff.mp hlayout
      exact he'
    simp only [Entry.leadsTo, Bool.and_eq_true, decide_eq_true_eq] at hleads
    have hlt := h.owner p.1 (List.mem_of_getElem? hentry) _ hleads.1.1
    have hi := h.id i e he
    have hj := h.id j p.1 hentry
    omega
  have happend : e.partsOf s (changes.layout s given) n
      = e.partsOf s ((changes.layout s given).take (i + 1)) n
        ++ e.partsOf s ((changes.layout s given).drop (i + 1)) n := by
    rw [Entry.partsOf, Entry.partsOf, Entry.partsOf, ← List.filter_append,
      List.take_append_drop]
  rw [happend, hbefore, List.nil_append]

/-- **The document of an entry comes from those of all entries**, unless it is given. -/
theorem Tracked.documentOf_eq (h : changes.Tracked s) {i : Nat} {e : Entry}
    (he : changes.entry? i = some e) :
    changes.documentOf s given i = (given i).getD (e.document s (changes.layout s given)) := by
  have hentry : changes.entries[i]? = some e := he
  have hdocument := Entry.document_congr fun n => h.partsOf_drop given he n
  rw [documentOf, layout, getElem?_documents, hentry, Option.map_some, Option.map_some,
    Option.getD_some, h.id i e he, ← layout, hdocument]

theorem Tracked.layout_eq (h : changes.Tracked s) :
    changes.layout s given
      = changes.entries.map fun e => (e, changes.documentOf s given e.id) := by
  refine List.ext_getElem? fun i => ?_
  rw [List.getElem?_map]
  cases he : changes.entries[i]? with
  | none =>
    rw [layout, getElem?_documents, he]
    rfl
  | some e =>
    rw [Option.map_some, h.id i e he, documentOf, layout, getElem?_documents, he]
    rfl

/-- A document that is not given comes from the entries of the change set, with their
documents. -/
theorem Tracked.documentOf_entries (h : changes.Tracked s) {e : Entry} (he : e ∈ changes.entries)
    (hgiven : given e.id = none) :
    changes.documentOf s given e.id
      = e.document s (changes.entries.map fun p => (p, changes.documentOf s given p.id)) := by
  rw [h.documentOf_eq (h.entry?_id he), hgiven, Option.getD_none, h.layout_eq]

/-- The parts of an entry are entries of the change set, with their documents. -/
theorem Tracked.partsOf_layout (h : changes.Tracked s) (given : Given) (e : Entry)
    (n : Navigation) :
    e.partsOf s (changes.layout s given) n
      = (changes.entries.filter (e.leadsTo s n)).map fun part =>
        (part, changes.documentOf s given part.id) := by
  rw [Entry.partsOf, h.layout_eq, List.filter_map]
  rfl

/-- The entry at a position is composed to its document. -/
theorem getElem?_composeGiven (hs : s.KnowsTargets) {i : Nat} {e : Entry}
    (he : changes.entry? i = some e) :
    (composeGiven s given changes.entries)[i]? = some (e, .ok (changes.documentOf s given i)) := by
  have hentry : changes.entries[i]? = some e := he
  rw [composeGiven_eq hs, List.getElem?_map, documentOf, layout, getElem?_documents, hentry]
  rfl

/-- **Every tracked entry has a document**, where owning navigations have their targets. -/
theorem compose_eq_documentOf (hs : s.KnowsTargets) {i : Nat} {e : Entry}
    (he : changes.entry? i = some e) :
    changes.compose s i = .ok (changes.documentOf s .nothing i) := by
  rw [compose, ← composeGiven_nothing, getElem?_composeGiven hs he]

end ChangeSet

end Odm
