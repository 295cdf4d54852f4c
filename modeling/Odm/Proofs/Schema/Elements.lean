import Odm.Proofs.Schema.Completion

/-!
# The elements of properties

The author of a model may give a property an element. Where none is given, the usual conventions
give `_id` to the only key property of a hierarchy root that is stored in documents of its own, and
every other property is stored under its name. Embedded types lose the shadow properties of their
keys. So the properties of a finished type and their elements can be read off the model, and what
the other conventions do to a property changes neither its name nor its element.
-/

namespace Odm

/-! ## Properties that conventions complete -/

namespace Convention

/-- A property keeps its name and gets the element that is asked for. -/
def Named (key : Option String) (p p' : Property) : Prop :=
  p'.name = p.name
    ∧ p'.element = p.elementName.getD (if key = some p.name then defaultKeyElement else p.name)

theorem nameElement_named (key : Option String) (p : Property) :
    Named key p (nameElement key defaultKeyElement false p) := by
  unfold nameElement Named
  cases helement : p.elementName with
  | some element =>
    rw [if_pos (by rfl), Property.element, helement]
    exact ⟨rfl, rfl⟩
  | none =>
    rw [if_neg (by simp), Option.getD_none]
    by_cases hkey : key = some p.name
    · rw [if_pos hkey, if_pos hkey]
      exact ⟨rfl, rfl⟩
    · rw [if_neg hkey, if_neg (by simp), if_neg hkey, Property.element, helement]
      exact ⟨rfl, rfl⟩

theorem generateProperty_named {key : Option String} {p p' : Property} (h : Named key p p')
    (generated : String) : Named key p (generateProperty generated p') := by
  unfold generateProperty
  split <;> exact h

theorem properties_generateKey (t : EntityType) :
    ∃ g : Property → Property, (generateKey t).properties = t.properties.map g
      ∧ ∀ key p p', Named key p p' → Named key p (g p') := by
  have hid : ∃ g : Property → Property, t.properties = t.properties.map g
      ∧ ∀ key p p', Named key p p' → Named key p (g p') :=
    ⟨id, (List.map_id _).symm, fun _ _ _ h => h⟩
  unfold generateKey
  split
  · exact hid
  · split
    · exact hid
    · exact ⟨_, rfl, fun _ _ _ h => generateProperty_named h _⟩

/-! ## Keys -/

theorem isOwned_discoverKey (t : EntityType) : (discoverKey t).isOwned = t.isOwned :=
  congrArg (·.isOwned) (discoverKey_completes t).settled

/-- No key is discovered for an owned type. -/
theorem discoverKey_of_isOwned {t : EntityType} (h : t.isOwned) : discoverKey t = t := by
  rw [discoverKey, h, Bool.or_true, if_pos rfl]

/-- A root that is not owned has the key that its author lists, and if none is listed, the first
property that is named like a key. -/
theorem key_discoverKey {t : EntityType} (hbase : t.base = none) (howned : t.isOwned = false) :
    (discoverKey t).key
      = (t.key <|> (t.properties.find? (namesKey t)).map fun p => [p.name]) := by
  rw [discoverKey, hbase, howned]
  cases hkey : t.key with
  | some key =>
    rw [if_pos (by rfl), hkey]
    rfl
  | none => rfl

/-- A type that is not owned keeps its key. -/
theorem key_embed {t : EntityType} (h : t.isOwned = false) : (embed t).key = t.key := by
  rw [embed, h, if_neg Bool.false_ne_true]
  split <;> rfl

theorem properties_discoverKey (t : EntityType) : (discoverKey t).properties = t.properties := by
  unfold discoverKey
  split <;> rfl

/-- The property whose element is `_id`: the only key property of a root that is not owned. -/
def elementKey? (t : EntityType) : Option String :=
  if (embed (discoverKey t)).base.isNone then singleKey? (embed (discoverKey t)) else none

theorem elementKey?_eq (t : EntityType) :
    elementKey? t
      = if t.base.isSome || t.isOwned then none
        else
          match t.key with
          | some [name] => some name
          | some _ => none
          | none => (t.properties.find? (namesKey t)).map (·.name) := by
  have hbase : (embed (discoverKey t)).base = t.base := by
    have hsettled := (embed_completes (discoverKey t)).settled.trans
      (discoverKey_completes t).settled
    exact congrArg (·.base) hsettled
  rw [elementKey?, hbase]
  -- derived and embedded types have no key element, whatever their key is
  cases ht : t.base with
  | some base => rfl
  | none =>
    cases howned : t.isOwned with
    | true =>
      rw [discoverKey_of_isOwned howned, embed, if_pos howned]
      rfl
    | false =>
      have hkey : (embed (discoverKey t)).key = _ :=
        (key_embed ((isOwned_discoverKey t).trans howned)).trans (key_discoverKey ht howned)
      rw [singleKey?, hkey]
      cases t.key with
      | some key => rcases key with _ | ⟨name, _ | ⟨next, rest⟩⟩ <;> rfl
      | none => cases t.properties.find? (namesKey t) <;> rfl

/-! ## Properties -/

/-- An owned type loses the shadow properties of its key, and no other type loses any. -/
theorem properties_embed (t : EntityType) :
    (embed (discoverKey t)).properties
      = t.properties.filter fun p => !(t.isOwned && (shadowKeys t).contains p.name) := by
  cases ht : t.isOwned with
  | true =>
    rw [discoverKey_of_isOwned ht, embed, if_pos ht]
    rfl
  | false =>
    have hall : (t.properties.filter fun p => !(false && (shadowKeys t).contains p.name))
        = t.properties := List.filter_eq_self.mpr fun _ _ => rfl
    rw [hall, embed, isOwned_discoverKey, ht, if_neg Bool.false_ne_true]
    split <;> exact properties_discoverKey t

/-- **The properties of a completed type** are those that it does not lose, each with the element
that is asked for. -/
theorem properties_completed (naming : CollectionNaming) (t : EntityType) :
    ∃ g : Property → Property,
      (completed naming t).properties
        = (t.properties.filter fun p => !(t.isOwned && (shadowKeys t).contains p.name)).map g
      ∧ ∀ p, Named (elementKey? t) p (g p) := by
  obtain ⟨g, hg, hnamed⟩ := properties_generateKey (nameDiscriminator (nameCollection naming
    (nameElements defaultKeyElement false (embed (discoverKey t)))))
  have hcollection : ∀ u : EntityType, (nameCollection naming u).properties = u.properties := by
    intro u
    unfold nameCollection
    split <;> rfl
  refine ⟨g ∘ nameElement (elementKey? t) defaultKeyElement false, ?_,
    fun p => hnamed _ _ _ (nameElement_named _ p)⟩
  rw [completed, hg, ← List.map_map, ← properties_embed, nameDiscriminator]
  dsimp only
  rw [hcollection]
  rfl

end Convention

/-! ## What authors ask for -/

namespace Model

/-- The only key property of a hierarchy root that is not embedded: the one that its author lists,
and if none are listed, the first one that is named like a key. -/
def soleKey? (m : Model) (t : EntityType) : Option String :=
  if t.base.isSome || m.embeds t then none
  else
    match t.key with
    | some [name] => some name
    | some _ => none
    | none => (t.properties.find? (Convention.namesKey t)).map (·.name)

/-- The element that an author asks for a property. -/
def elementOf (m : Model) (t : EntityType) (p : Property) : String :=
  p.elementName.getD (if m.soleKey? t = some p.name then defaultKeyElement else p.name)

/-- Embedded types lose the shadow properties of their keys. -/
def keeps (m : Model) (t : EntityType) (p : Property) : Bool :=
  !(m.embeds t && (Convention.shadowKeys t).contains p.name)

theorem elementKey?_ownedBy (m : Model) (t : EntityType) :
    Convention.elementKey? (Convention.ownedBy m.owning (m.linked t)) = m.soleKey? t := by
  have howned : (Convention.ownedBy m.owning (m.linked t)).isOwned = m.embeds t :=
    Convention.isOwned_ownedBy _ _
  rw [Convention.elementKey?_eq, howned, soleKey?]
  obtain ⟨_, _, heq⟩ := Convention.ownedBy_eq m.owning (m.linked t)
  rw [heq]
  rfl

theorem shadowKeys_ownedBy (m : Model) (t : EntityType) :
    Convention.shadowKeys (Convention.ownedBy m.owning (m.linked t)) = Convention.shadowKeys t := by
  obtain ⟨_, _, heq⟩ := Convention.ownedBy_eq m.owning (m.linked t)
  rw [heq]
  rfl

/-- **The properties of a finished type** are those that its author wrote down and that it does not
lose, each with its name and the element that is asked for. -/
theorem finished_properties (m : Model) (naming : CollectionNaming) (t : EntityType) :
    ∃ g : Property → Property,
      (m.finished naming t).properties = (t.properties.filter (m.keeps t)).map g
      ∧ ∀ p, (g p).name = p.name ∧ (g p).element = m.elementOf t p := by
  have howned : (Convention.ownedBy m.owning (m.linked t)).isOwned = m.embeds t :=
    Convention.isOwned_ownedBy _ _
  have hproperties : (Convention.ownedBy m.owning (m.linked t)).properties = t.properties := by
    obtain ⟨_, _, heq⟩ := Convention.ownedBy_eq m.owning (m.linked t)
    rw [heq]
    rfl
  obtain ⟨g, hg, hnamed⟩ :=
    Convention.properties_completed naming (Convention.ownedBy m.owning (m.linked t))
  rw [howned, hproperties, shadowKeys_ownedBy] at hg
  rw [elementKey?_ownedBy] at hnamed
  exact ⟨g, hg, hnamed⟩

end Model

end Odm
