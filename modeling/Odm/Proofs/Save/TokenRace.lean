import Odm.Proofs.Save.Run
import Odm.Proofs.Schema.Valid
import Odm.Proofs.Update.Element

/-!
# Racing for a token

A concurrency token that is generated on every write makes the filters of replaces and deletes
match a document only in the version in which it was loaded. However many units of work have
loaded a document in one version, and however their saves interleave with any others, only one of
their directives can change it.

The invariant is the number of documents that *carry* the key and the token value. What is stored
has a token that was generated for it, so that number never grows. A directive for the version
either misses, or it takes one of these documents away. Once there is none left, all other
directives for the version miss.
-/

namespace Odm

/-! ## Versions -/

/-- A root has a token that is generated on every write, and nothing else is stored where the key
and the token are. -/
structure Guards (s : Schema) (root : EntityType) (token : Property) : Prop where
  isRoot : s.root? root.name = some root
  declared : token ∈ root.properties
  isToken : token.isConcurrencyToken
  isPersisted : token.isPersisted
  generation : token.generation = .onAddOrUpdate
  tokenElement : Exclusive s root token
  keyElements : ∀ p ∈ s.keyProperties root.name, Exclusive s root p

/-- A version of a document: the key that it has in its hierarchy, and the value of a token. -/
structure Version where
  root : EntityType
  token : Property
  key : Property → Value
  value : Value

/-- The values drawn at a turn. At that of a deleted entry there are none. -/
def Turn.draws (s : Schema) (turn : Turn) : List (Property × Value) :=
  match turn.before.changes.entry? turn.id with
  | none => []
  | some e =>
    if e.state = .deleted then []
    else turn.before.planner.source.draws (e.state = .added) e (s.properties e.entityType.name)

namespace Version

/-- Documents in the version. -/
def Carried (s : Schema) (version : Version) (d : Document) : Prop :=
  (∀ p ∈ s.keyProperties version.root.name, d.fieldOrNull p.element = version.key p)
    ∧ d.fieldOrNull version.token.element = version.value

instance (s : Schema) (version : Version) : DecidablePred (version.Carried s) :=
  fun d => inferInstanceAs (Decidable
    ((∀ p ∈ s.keyProperties version.root.name, d.fieldOrNull p.element = version.key p)
      ∧ d.fieldOrNull version.token.element = version.value))

/-- The entry of the turn is stored already and was loaded or saved last in the version. -/
def Tracked (s : Schema) (version : Version) (turn : Turn) : Prop :=
  ∃ e, turn.before.changes.entry? turn.id = some e
    ∧ s.root? e.entityType.name = some version.root ∧ e.state ≠ .added
    ∧ (∀ p ∈ s.keyProperties version.root.name, e.baseline.get? p.name = some (version.key p))
    ∧ e.baseline.get? version.token.name = some version.value

/-- No value that is drawn for the token at the turn is that of the version. -/
def Fresh (s : Schema) (version : Version) (turn : Turn) : Prop :=
  ∀ p v, (p, v) ∈ turn.draws s → p.name = version.token.name → v ≠ version.value

end Version

/-! ## What is stored and what is matched -/

section Hierarchy

variable {s : Schema} {version : Version} {step : Step} {e : Entry}

/-- Types of one hierarchy have the same key. -/
theorem Schema.keyProperties_eq {root : EntityType} {a b : String} (ha : s.root? a = some root)
    (hb : s.root? b = some root) : s.keyProperties a = s.keyProperties b := by
  rw [keyProperties, keyProperties, ha, hb]

/-- Types of one hierarchy have the same collection. -/
theorem Schema.collectionName_eq {root : EntityType} {a b collection collection' : String}
    (ha : s.root? a = some root) (hb : s.root? b = some root)
    (hca : s.collectionName a = .ok collection) (hcb : s.collectionName b = .ok collection') :
    collection = collection' := by
  obtain ⟨roota, hroota, _, rfl⟩ := collectionRoot_of_collectionName hca
  obtain ⟨rootb, hrootb, _, rfl⟩ := collectionRoot_of_collectionName hcb
  cases ha.symm.trans hroota
  cases hb.symm.trans hrootb
  rfl

/-- What is composed after values were drawn does not carry a version that was not drawn. -/
theorem Version.not_carried_of_fill {changes : ChangeSet} {id : Nat} {adding : Bool}
    {source source' : ValueSource} {e' : Entry} {document : Document}
    (hguards : Guards s version.root version.token)
    (htyped : s.find? e.entityType.name = some e.entityType)
    (hroot : s.root? e.entityType.name = some version.root)
    (he : changes.entry? id = some e)
    (hfill : source.fill adding e (s.properties e.entityType.name) = (.ok (), e', source'))
    (hdocument : (changes.modify id fun _ => e').compose s id = .ok document)
    (hfresh : ∀ p v, (p, v) ∈ source.draws adding e (s.properties e.entityType.name) →
      p.name = version.token.name → v ≠ version.value) :
    ¬ version.Carried s document := by
  rintro ⟨_, hvalue⟩
  obtain ⟨e'', later, he'', hcompose⟩ := ChangeSet.compose_eq_ok hdocument
  have hself := ChangeSet.entry?_modify_self (fun _ => e') he
  cases hself.symm.trans he''
  have htype := Entry.entityType_of_outline (ValueSource.outline_of_fill hfill)
  obtain ⟨p, v, hdrawn, hname, hcurrent⟩ := ValueSource.exists_draw hguards.generation
    (Catalog.mem_properties_of_root? hroot hguards.declared) hfill
  have hget := Entry.get?_compose hguards.tokenElement (htype ▸ htyped) (htype ▸ hroot)
    hguards.declared hguards.isPersisted hcurrent hcompose
  rw [Document.fieldOrNull, hget, Option.getD_some] at hvalue
  exact hfresh p v hdrawn hname hvalue

/-- **What a step stores does not carry the version.** -/
theorem Step.Sound.not_carried (hstep : step.Sound s e)
    (hguards : Guards s version.root version.token)
    (hroot : s.root? e.entityType.name = some version.root)
    (hfresh : version.Fresh s step.turn) :
    ∀ document, step.turn.directive.document? = some document →
      ¬ version.Carried s document := by
  obtain ⟨he, htyped, _, hwritten, _⟩ := hstep
  obtain ⟨collection, ⟨id, before, directive, after⟩, documents, documents'⟩ := step
  unfold Version.Fresh Turn.draws at hfresh
  rw [he] at hfresh
  dsimp only at he hwritten hfresh ⊢
  intro document hstored
  -- whatever is stored is composed from the entry as it was filled, with its fresh token
  cases hwritten with
  | inserted hstate hfill hchanges hdocument =>
    cases hstored
    rw [hchanges] at hdocument
    rw [if_neg (by simp [hstate]), hstate] at hfresh
    exact version.not_carried_of_fill hguards htyped hroot he hfill hdocument
      (by simpa using hfresh)
  | replaced hstate hfill hchanges _ hdocument =>
    cases hstored
    rw [hchanges] at hdocument
    have hadded : e.state ≠ .added := by rcases hstate with h | h <;> simp [h]
    rw [if_neg (by rcases hstate with h | h <;> simp [h])] at hfresh
    exact version.not_carried_of_fill hguards htyped hroot he hfill hdocument
      (by simpa [hadded] using hfresh)
  | deleted _ _ _ => cases hstored

/-- **The directive for an entry that was loaded in a version matches nothing else.** -/
theorem Step.Sound.filter_carried (hstep : step.Sound s e)
    (hguards : Guards s version.root version.token) (htracked : version.Tracked s step.turn) :
    ∃ filter, step.turn.directive.filter? = some filter
      ∧ ∀ d : Document, d.Matches filter → version.Carried s d := by
  obtain ⟨he, htyped, _, hwritten, _⟩ := hstep
  obtain ⟨e₀, he₀, hroot, hadded, hkey, htoken⟩ := htracked
  cases he.symm.trans he₀
  -- loaded entries are replaced or deleted, both by a filter of their baseline
  obtain ⟨filter, e', hdirective, hout, hfilter⟩ := hwritten.filter_of_ne_added hadded
  rw [← Entry.entityType_of_outline hout] at htyped hroot
  rw [← Entry.baseline_of_outline hout] at hkey htoken
  refine ⟨filter, hdirective, ?_⟩
  intro d hd
  refine ⟨?_, ?_⟩
  · -- the filter asks for the key of the version
    intro p hp
    have hmem : p ∈ s.keyProperties e'.entityType.name := by
      rwa [Schema.keyProperties_eq hroot hguards.isRoot]
    have hget := e'.get?_filter (hguards.keyElements p hp) htyped hroot (.inl hmem)
      (by rw [Entry.baselineValue?, hkey p hp]; rfl) hfilter
    exact hd _ (Table.mem_of_get? hget)
  · -- and for its token
    have hmem := Catalog.mem_properties_of_root? hroot hguards.declared
    have hget := e'.get?_filter hguards.tokenElement htyped hroot
      (.inr ⟨hmem, hguards.isToken, hguards.isPersisted⟩)
      (by rw [Entry.baselineValue?, htoken]; rfl) hfilter
    exact hd _ (Table.mem_of_get? hget)

end Hierarchy

/-! ## The race -/

open Collection

/-- What a step does about a version: directives for it are for its collection and have an effect
on nothing else, and no directive makes documents of the version more. -/
structure Step.Obeys (s : Schema) (version : Version) (collection : String) (step : Step) :
    Prop where
  collection_eq : version.Tracked s step.turn → step.collection = collection
  countP_le : step.collection = collection →
    step.after.countP (version.Carried s ·) ≤ step.before.countP (version.Carried s ·)
  eq_or_took : version.Tracked s step.turn →
    step.after = step.before ∨ Took (version.Carried s) step.before step.after

/-- **Every step of a run obeys**, as long as the values drawn are fresh. -/
theorem Run.obeys {m : Model} {conventions : List Convention} {s : Schema} {version : Version}
    {collection : String} {store store' : MemoryStore} {history : List Step}
    (hmodel : m.finish conventions = .ok s) (hguards : Guards s version.root version.token)
    (hcollection : s.collectionName version.root.name = .ok collection)
    (hrun : Run s store history store')
    (hfresh : ∀ step ∈ history, step.collection = collection → version.Fresh s step.turn) :
    ∀ step ∈ history, step.Obeys s version collection := by
  intro step hmem
  obtain ⟨e, hstep⟩ := hrun.sound step hmem
  have htracked : version.Tracked s step.turn → step.collection = collection := by
    rintro ⟨e₀, he₀, hroot, _⟩
    cases hstep.entry.symm.trans he₀
    exact Schema.collectionName_eq hroot hguards.isRoot hstep.collectionName hcollection
  have hstored : step.collection = collection → ∀ document,
      step.turn.directive.document? = some document → ¬ version.Carried s document := by
    intro hc
    -- only types of the hierarchy have the collection
    have hroot := Schema.root?_of_collectionName (Model.finish_valid hmodel)
      (Model.finish_eq_ok hmodel).1 hstep.collectionName (hc ▸ hcollection)
    rw [hguards.isRoot] at hroot
    exact hstep.not_carried hguards hroot (hfresh step hmem hc)
  refine ⟨htracked, ?_, ?_⟩
  · intro hc -- deletes store nothing, and what inserts and replaces store has a new token
    exact hstep.effect.countP_le (hstored hc)
  · intro ht
    obtain ⟨filter, hdirective, hfilter⟩ := hstep.filter_carried hguards ht
    exact hstep.effect.eq_or_took hdirective hfilter (hstored (htracked ht))

namespace Thread

variable {s : Schema} {version : Version} {collection : String}
  {documents documents' : List Document} {history : List Step}

/-- Once no document carries the version, directives for it miss. -/
theorem eq_of_none (h : Thread collection documents history documents')
    (hobeys : ∀ step ∈ history, step.Obeys s version collection)
    (hnone : documents.countP (version.Carried s ·) = 0) :
    ∀ step ∈ history, version.Tracked s step.turn → step.after = step.before := by
  induction h with
  | nil => nofun
  | @here first rest _ hcollection _ ih =>
    obtain ⟨hfirst, hrest⟩ := List.forall_mem_cons.mp hobeys
    -- the count stays at zero from step to step
    have hle := hfirst.countP_le hcollection
    intro step hstep htracked
    rcases List.mem_cons.mp hstep with rfl | hstep
    · rcases hfirst.eq_or_took htracked with heq | htook
      · exact heq
      · have hlt := htook.countP_lt -- there is none to take
        omega
    · exact ih hrest (by omega) step hstep htracked
  | elsewhere hcollection _ ih =>
    obtain ⟨hfirst, hrest⟩ := List.forall_mem_cons.mp hobeys
    intro step hstep htracked
    rcases List.mem_cons.mp hstep with rfl | hstep
    · exact absurd (hfirst.collection_eq htracked) hcollection
    · exact ih hrest hnone step hstep htracked

/-- **If one document carries the version, then one directive for it has an effect.** -/
theorem pairwise_eq (h : Thread collection documents history documents')
    (hobeys : ∀ step ∈ history, step.Obeys s version collection)
    (hone : documents.countP (version.Carried s ·) ≤ 1) :
    history.Pairwise fun a b => version.Tracked s a.turn → version.Tracked s b.turn →
      a.after = a.before ∨ b.after = b.before := by
  induction h with
  | nil => exact .nil
  | @here first rest _ hcollection hthread ih =>
    obtain ⟨hfirst, hrest⟩ := List.forall_mem_cons.mp hobeys
    have hle := hfirst.countP_le hcollection
    refine List.pairwise_cons.mpr ⟨?_, ih hrest (by omega)⟩
    intro step hstep htracked htracked'
    -- Either this directive misses, or it takes the only document and all later ones miss.
    rcases hfirst.eq_or_took htracked with heq | htook
    · exact .inl heq
    · have hlt := htook.countP_lt
      exact .inr (hthread.eq_of_none hrest (by omega) step hstep htracked')
  | elsewhere hcollection _ ih =>
    obtain ⟨hfirst, hrest⟩ := List.forall_mem_cons.mp hobeys
    refine List.pairwise_cons.mpr ⟨?_, ih hrest hone⟩
    intro step _ htracked _
    exact absurd (hfirst.collection_eq htracked) hcollection

end Thread

/-- **At most one directive for a version has an effect**, whatever else is saved in between. If
the store has no more than one document in the version at first, then of any two directives from
entries that were loaded in the version one changes nothing. And one that changes something
removes a document in the version or puts one in its place that is not. The schema is one that
conventions of this library finished. -/
theorem version_taken_once {m : Model} {conventions : List Convention} {s : Schema}
    {version : Version} {collection : String} {store store' : MemoryStore} {history : List Step}
    (hmodel : m.finish conventions = .ok s) (hguards : Guards s version.root version.token)
    (hcollection : s.collectionName version.root.name = .ok collection)
    (hone : (store.documents collection).countP (version.Carried s ·) ≤ 1)
    (hrun : Run s store history store')
    (hfresh : ∀ step ∈ history, step.collection = collection → version.Fresh s step.turn) :
    (history.Pairwise fun a b => version.Tracked s a.turn → version.Tracked s b.turn →
        a.after = a.before ∨ b.after = b.before)
      ∧ ∀ step ∈ history, version.Tracked s step.turn → step.collection = collection
        ∧ (step.after = step.before ∨ Took (version.Carried s) step.before step.after) := by
  have hobeys := hrun.obeys hmodel hguards hcollection hfresh
  refine ⟨(hrun.thread collection).pairwise_eq hobeys hone, ?_⟩
  intro step hstep htracked
  exact ⟨(hobeys step hstep).collection_eq htracked, (hobeys step hstep).eq_or_took htracked⟩

/-- The version of the pet with key 1 in which its token is 7. -/
def seventh : Version where
  root := (pets .onAddOrUpdate).types.headD default
  token := ⟨"Version", "Pet", .int32, none, false, true, some .onAddOrUpdate⟩
  key := fun _ => .int 1
  value := .int 7

/-- A pet renamed that was loaded in that version. -/
def rename (name : String) : UnitOfWork := petUnit [petEntry .onAddOrUpdate 0 .modified 1 7 name]

/-- The turn of the renamed pet. -/
def renameTurn (name : String) : Turn where
  id := 0
  before := rename name
  directive := .replace [("Version", .int 7), ("_id", .int 1)] (petDocument 1 1 name)
  after := ((rename name).directive (pets .onAddOrUpdate) 0).2

/-- Two renames of one pet, of which the second comes too late. -/
def renames : List Step := [
  ⟨"pets", renameTurn "b", [petDocument 1 7 "a"], [petDocument 1 1 "b"]⟩,
  ⟨"pets", renameTurn "c", [petDocument 1 1 "b"], [petDocument 1 1 "b"]⟩]

theorem rename_typed (name : String) : (rename name).Typed (pets .onAddOrUpdate) := by
  intro e he
  rw [List.mem_singleton.mp he]
  rfl

theorem rename_course (name : String) :
    Course (pets .onAddOrUpdate) (rename name) [("pets", [renameTurn name])]
      (renameTurn name).after :=
  ⟨rfl, .cons rfl .nil⟩

theorem renames_run : Run (pets .onAddOrUpdate) (petStore [petDocument 1 7 "a"]) renames
    (petStore [petDocument 1 1 "b"]) :=
  .write (.write .nil (rename_typed "b") (rename_course "b") (List.mem_singleton_self _))
    (rename_typed "c") (rename_course "c") (List.mem_singleton_self _)

theorem renames_tracked :
    ∀ step ∈ renames, seventh.Tracked (pets .onAddOrUpdate) step.turn := by
  intro step hstep
  rcases List.mem_pair.mp hstep with rfl | rfl
  · exact ⟨_, rfl, rfl, nofun, by decide, rfl⟩
  · exact ⟨_, rfl, rfl, nofun, by decide, rfl⟩

theorem renames_fresh : ∀ step ∈ renames, seventh.Fresh (pets .onAddOrUpdate) step.turn := by
  intro step hstep p v hdrawn _
  rcases List.mem_pair.mp hstep with rfl | rfl
  · rw [(Prod.mk.inj (List.mem_singleton.mp hdrawn)).2]
    decide
  · rw [(Prod.mk.inj (List.mem_singleton.mp hdrawn)).2]
    decide

theorem seventh_exclusive {p : Property} (hp : p ∈ seventh.root.properties) :
    Exclusive (pets .onAddOrUpdate) seventh.root p := by
  -- there is one type, so that all conditions are about that one
  have hfind : ∀ t, (pets .onAddOrUpdate).find? t.name = some t → t = seventh.root := by
    intro t ht
    exact List.mem_singleton.mp (List.mem_of_find?_eq_some ht)
  refine ⟨?_, ?_, ?_⟩
  · intro t ht _
    rw [hfind t ht]
    revert p
    decide
  · intro t ht _ hpoly
    rw [hfind t ht] at hpoly
    exact absurd hpoly (by decide)
  · intro t ht _
    rw [hfind t ht]
    nofun

theorem seventh_guards : Guards (pets .onAddOrUpdate) seventh.root seventh.token where
  isRoot := rfl
  declared := by decide
  isToken := rfl
  isPersisted := rfl
  generation := rfl
  tokenElement := seventh_exclusive (by decide)
  keyElements := by
    intro p hp
    refine seventh_exclusive ?_
    revert p
    decide

theorem version_taken_once_renames :
    Model.finish ⟨(pets .onAddOrUpdate).toCatalog, "_t"⟩ (Convention.defaults .pluralCamelCase)
        = .ok (pets .onAddOrUpdate)
      ∧ Run (pets .onAddOrUpdate) (petStore [petDocument 1 7 "a"]) renames
        (petStore [petDocument 1 1 "b"])
      ∧ (renames.Pairwise fun a b => seventh.Tracked (pets .onAddOrUpdate) a.turn →
        seventh.Tracked (pets .onAddOrUpdate) b.turn → a.after = a.before ∨ b.after = b.before)
      ∧ ∀ step ∈ renames, step.collection = "pets" ∧ (step.after = step.before
        ∨ Took (seventh.Carried (pets .onAddOrUpdate)) step.before step.after) := by
  have hmodel : Model.finish ⟨(pets .onAddOrUpdate).toCatalog, "_t"⟩
      (Convention.defaults .pluralCamelCase) = .ok (pets .onAddOrUpdate) := rfl
  obtain ⟨honce, htaken⟩ := version_taken_once hmodel seventh_guards rfl (by decide)
    renames_run fun step hstep _ => renames_fresh step hstep
  exact ⟨hmodel, renames_run, honce, fun step hstep =>
    htaken step hstep (renames_tracked step hstep)⟩

end Odm
