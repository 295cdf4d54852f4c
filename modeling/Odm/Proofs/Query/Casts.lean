import Odm.Proofs.Query.Lookup

/-!
# Chains of casts

Conversions around the source of a member say on which type the member is looked up. Of a chain of
them along a line of inheritance only the innermost says it: the first type that is not the type
of the entity anyway. If that type derives from the entity's, members are looked up on it, and
else on the entity's own type. What is converted further counts for nothing.

So a chain binds like its outermost type only where both types have the same member of the name. An
animal seen as a mammal and then as a dog is looked up as a mammal and does not bark. A single
conversion to the outermost type has no such gap, and this measures the chain against it.

The node of a member tells from which member it was bound. So two types give one node just if they
have one member of the name, and nothing has to be known about where the members are declared.
-/

namespace Odm

/-! ## Conversions in a row -/

/-- Conversions to entity types, one around the other, the innermost first. -/
def HostExpr.casts (e : HostExpr) (types : List String) : HostExpr :=
  types.foldl (fun e type => e.convert (.entity type)) e

/-- A member of the entity that is found at an output path, behind conversions. -/
def EntityShape.memberBehind (shape : EntityShape) (path : OutputPath) (bufferType : HostType)
    (name : String) (type : HostType) (types : List String) : HostExpr :=
  .member ((HostExpr.shaper shape.entityType (.projected path bufferType)).casts types) name type

/-- The type on which members are looked up behind conversions of an entity of type `start`. -/
def Schema.castType (s : Schema) (start : String) (types : List String) : String :=
  match types.find? (· ≠ start) with
  | some type => if s.isAssignable start type then type else start
  | none => start

namespace HostExpr

theorem casts_cons (e : HostExpr) (type : String) (types : List String) :
    e.casts (type :: types) = (e.convert (.entity type)).casts types := rfl

/-- **The innermost conversion to another type is the one that asks for a type.** -/
theorem convertedType?_casts (types : List String) : ∀ {e : HostExpr} {start : String},
    e.type = .entity start → (e.casts types).convertedType?
      = (e.convertedType? <|> (types.find? (· ≠ start)).map .entity) := by
  induction types with
  | nil =>
    intro e start _
    rw [List.find?_nil, Option.map_none]
    cases h : e.convertedType? <;> exact h
  | cons type rest ih =>
    intro e start he
    -- of two conversions the inner one counts, unless it is to the entity's own type
    have hconvert : (e.convert (.entity type)).convertedType?
        = (e.convertedType? <|> if type = start then none else some (.entity type)) := by
      simp [convert, convertedType?, HostUnaryOp.isConversion, he]
    rw [casts_cons, ih (rfl : (e.convert (.entity type)).type = .entity type), hconvert]
    by_cases htype : type = start
    · subst htype
      simp
    · have hfind : (type :: rest).find? (· ≠ start) = some type :=
        List.find?_cons_of_pos (decide_eq_true htype)
      rw [if_neg htype, hfind]
      cases e.convertedType? <;> rfl

end HostExpr

namespace Schema

variable {s : Schema} {start last : String} {types : List String}

/-- Members are looked up on the type of the entity or on one that derives from it. -/
theorem isAssignable_castType (hself : s.isAssignable start start) (types : List String) :
    s.isAssignable start (s.castType start types) := by
  unfold castType
  split
  · split
    · assumption
    · exact hself
  · exact hself

/-- A single conversion to a derived type asks for that type. -/
theorem castType_singleton (h : s.isAssignable start last) : s.castType start [last] = last := by
  unfold castType
  by_cases hlast : last = start
  · rw [List.find?_cons_of_neg (by simpa using hlast), List.find?_nil, hlast]
  · rw [List.find?_cons_of_pos (by simpa using hlast)]
    exact if_pos h

/-- The innermost type that is another is related to the first, since all types before it are that
one. -/
theorem areRelated_of_find?
    (hchain : List.IsChain (fun a b => s.areRelated a b) (start :: types)) {type : String}
    (h : types.find? (· ≠ start) = some type) : s.areRelated start type := by
  induction types with
  | nil => cases h
  | cons first rest ih =>
    obtain ⟨hfirst, hrest⟩ := List.isChain_cons_cons.mp hchain
    by_cases hsame : first = start
    · rw [hsame] at hrest
      rw [List.find?_cons_of_neg (by simpa using hsame)] at h
      exact ih hrest h
    · rw [List.find?_cons_of_pos (by simpa using hsame)] at h
      cases h
      exact hfirst

end Schema

theorem Catalog.exists_of_areRelated {c : Catalog} {a b : String} (h : c.areRelated a b) :
    ∃ t, c.find? b = some t := by
  rcases (Bool.or_eq_true _ _).mp h with h | h
  · cases hb : c.find? b with
    | some t => exact ⟨t, rfl⟩
    | none =>
      rw [isAssignable, chain_of_none hb] at h
      cases h
  · obtain ⟨t, ht, hname⟩ := List.any_eq_true.mp h
    rw [← of_decide_eq_true hname]
    exact ⟨t, find?_of_mem_climb ht⟩

namespace EntityShape

variable {s : Schema} {shape : EntityShape}

/-- The type that conversions of an entity to these types ask for. -/
def requestedType (shape : EntityShape) (types : List String) : HostType :=
  ((types.find? (· ≠ shape.entityType)).map .entity).getD shape.type

/-- Behind conversions along a line of inheritance members are looked up on the type that
`castType` says. -/
theorem lookupType_requestedType (hs : s.Sorted) (hc : s.Rooted) (hl : s.Linked) {t : EntityType}
    (ht : s.find? shape.entityType = some t) {types : List String}
    (hrelated : ∀ type, types.find? (· ≠ shape.entityType) = some type →
      s.areRelated shape.entityType type) :
    shape.lookupType s (some (shape.requestedType types))
      = .ok (s.castType shape.entityType types) := by
  unfold Schema.castType requestedType
  cases hfind : types.find? (· ≠ shape.entityType) with
  | none => exact lookupType_self hs hc ht
  | some type =>
    have hne : type ≠ shape.entityType := by simpa using List.find?_some hfind
    have hline := hrelated type hfind
    obtain ⟨r, hr⟩ := Catalog.exists_of_areRelated hline
    cases Catalog.find?_name hr
    have hmem := Catalog.find?_mem hr
    dsimp only
    split
    · exact lookupType_of_derived hs hc hl hmem ‹_› hne
    · exact lookupType_of_base hs hmem (((Bool.or_eq_true _ _).mp hline).resolve_left ‹_›)

theorem bindMember_requestedType (hs : s.Sorted) (hc : s.Rooted) (hl : s.Linked) {t : EntityType}
    (ht : s.find? shape.entityType = some t) {types : List String}
    (hrelated : ∀ type, types.find? (· ≠ shape.entityType) = some type →
      s.areRelated shape.entityType type) (name : String) :
    shape.bindMember s name (some (shape.requestedType types)) false
      = shape.bindFound s false (s.member? (s.castType shape.entityType types) name) := by
  rw [(shape.looksUp_lookupType s name _ false).plain,
    lookupType_requestedType hs hc hl ht hrelated]
  rfl

end EntityShape

/-! ## What a node was bound from -/

/-- The member that a node was bound from, if it was bound from one. -/
def Node.member? : Node → Option Member
  | .scalar (.field f) => some (.property f.property)
  | .entity ⟨_, .object n _ _⟩ => some (.navigation n)
  | .array shape => some (.navigation shape.navigation)
  | _ => none

namespace EntityShape

variable {s : Schema} {shape : EntityShape}

theorem member?_of_bindNavigation {n : Navigation} {node : Node}
    (h : shape.bindNavigation s n = .ok node) : node.member? = some (.navigation n) := by
  obtain ⟨_, _, h⟩ := Except.bind_eq_ok_iff.mp h
  split at h
  · obtain ⟨array, harray, h⟩ := Except.bind_eq_ok_iff.mp h
    obtain ⟨field, _, harray⟩ := Except.bind_eq_ok_iff.mp harray
    cases Except.pure_eq_ok_iff.mp harray
    cases Except.pure_eq_ok_iff.mp h
    rfl
  · obtain ⟨field, _, h⟩ := Except.bind_eq_ok_iff.mp h
    cases Except.pure_eq_ok_iff.mp h
    rfl

theorem property_of_bindProperty {p : Property} {onClient : Bool} {f : Field}
    (h : shape.bindProperty s p onClient = .ok (some f)) : f.property = p := by
  obtain ⟨_, _, h⟩ := Except.bind_eq_ok_iff.mp h
  have hf := Except.pure_eq_ok_iff.mp h
  unfold Field.delivered? at hf
  split at hf
  · cases hf
  · cases hf
    rfl

/-- **A bound node tells the member.** -/
theorem member?_of_bindFound {onClient : Bool} {found : Option Member} {node : Node}
    (h : shape.bindFound s onClient found = .ok (some node)) : node.member? = found := by
  cases found with
  | none => cases h
  | some member =>
    cases member with
    | property p =>
      obtain ⟨f, hf, h⟩ := Except.bind_eq_ok_iff.mp h
      obtain ⟨f, rfl, rfl⟩ := Option.map_eq_some_iff.mp (Except.pure_eq_ok_iff.mp h)
      rw [Node.member?, property_of_bindProperty hf]
    | navigation n =>
      obtain ⟨node, hnode, h⟩ := Except.bind_eq_ok_iff.mp h
      cases Except.pure_eq_ok_iff.mp h
      exact member?_of_bindNavigation hnode

/-- Where one member is bound to a node, just that member is. -/
theorem bindFound_eq_iff {onClient : Bool} {found other : Option Member} {node : Node}
    (h : shape.bindFound s onClient found = .ok (some node)) :
    shape.bindFound s onClient other = .ok (some node) ↔ other = found := by
  constructor
  · intro hother
    rw [← member?_of_bindFound hother, member?_of_bindFound h]
  · rintro rfl
    exact h

end EntityShape

/-! ## Members of what is converted -/

theorem Attempt.orElse_of_none {α : Type} {x y : Attempt α} (h : y.run = .ok none) :
    (x <|> y) = x := by
  refine OptionT.ext ?_
  rw [OptionT.run_orElse, h]
  cases hx : x.run with
  | error e => rfl
  | ok o => cases o <;> rfl

namespace Translator

variable {t : Translator} {q : Select}

theorem visitSource_casts (types : List String) : ∀ e : HostExpr,
    t.visitSource q (e.casts types) = t.visitSource q e := by
  induction types with
  | nil => exact fun _ => rfl
  | cons type rest ih =>
    intro e
    rw [HostExpr.casts_cons, ih]
    exact if_pos rfl

/-- No conversion makes a scalar of what is none. -/
theorem scalar_casts (types : List String) : ∀ {e : HostExpr},
    (Attempt.scalar (t.visit q false e)).run = .ok none →
    (Attempt.scalar (t.visit q false (e.casts types))).run = .ok none := by
  induction types with
  | nil => exact id
  | cons type rest ih =>
    intro e he
    refine ih ?_
    change (Attempt.scalar (t.visit q false (.unary .convert e (.entity type)))).run = _
    rw [visit, if_neg (by simp), Attempt.scalar, OptionT.run_bind, OptionT.run_bind, he]
    rfl

/-- A member behind conversions is bound as the type that they ask for. Rules for members have no
say, since they are asked for members of scalars. -/
theorem visit_memberBehind {path : OutputPath} {shape : EntityShape}
    (hq : q.mapped path = .ok (.entity shape)) (bufferType : HostType) (name : String)
    (type : HostType) (types : List String) (stripped : Bool) :
    t.visit q stripped (shape.memberBehind path bufferType name type types)
      = OptionT.mk (shape.bindMember t.schema name (some (shape.requestedType types)) false) := by
  -- conversions to entities leave the source's shape alone
  have hvisit : t.visit q false (.shaper shape.entityType (.projected path bufferType))
      = pure (.entity shape) := by
    rw [visit, visit, hq]
    rfl
  have hsource : t.visitSource q
      ((HostExpr.shaper shape.entityType (.projected path bufferType)).casts types)
        = pure (.entity shape) := by
    rw [visitSource_casts, visitSource, ← hvisit, visit]
  have hrequested : ((HostExpr.shaper shape.entityType (.projected path bufferType)).casts
      types).convertedType? = (types.find? (· ≠ shape.entityType)).map .entity := by
    rw [HostExpr.convertedType?_casts types rfl]
    rfl
  rw [EntityShape.memberBehind, visit_member, Attempt.orElse_of_none]
  · rw [bindOn, hsource, pure_bind, hrequested]
    rfl
  · -- rules for members would be asked with a scalar, and an entity is none
    rw [OptionT.run_bind, scalar_casts types (by rw [hvisit]; rfl)]
    rfl

/-- What is bound to a member is translated to the same, if it is a field, and to nothing else. -/
theorem translate_eq_ok_iff (hs : t.schema.Valid) {e : HostExpr} {shape : EntityShape}
    {name : String} {requested : Option HostType} {s : Scalar}
    (h : t.visit q false e = OptionT.mk (shape.bindMember t.schema name requested false)) :
    t.translate q e = .ok (some s)
      ↔ shape.bindMember t.schema name requested false = .ok (some (.scalar s)) := by
  -- a field that a member is bound to is mapped already, so inference does nothing to it
  have hmapped : ∀ {x}, shape.bindMember t.schema name requested false = .ok (some (.scalar x)) →
      x.Mapped := by
    intro x hx
    obtain ⟨f, rfl⟩ := EntityShape.bindMember_scalar hx
    exact Scalar.mapped_field (by rw [EntityShape.mapping_of_bindMember hs hx]; rfl)
  constructor
  · intro htranslate
    obtain ⟨x, hx, hfinish⟩ := exists_visit_of_translate htranslate
    rw [h] at hx
    rw [eq_of_finish (hmapped hx) hfinish]
    exact hx
  · intro hbind
    have hx : (t.visit q false e).Yields (.scalar s) := by rwa [h]
    rw [translate_eq hx, finish_of_wellMapped (.mapped (hmapped hbind)),
      Scalar.applyMapping_of_isSome (hmapped hbind).root]

end Translator

/-! ## Finished schemas -/

open Translator in
/-- **A chain of casts binds like its innermost type**, the first one other than the entity's own.
So it is translated like a single conversion to a derived type, the outermost of the chain or
another, wherever both types have the same member of that name; and where the single conversion
leads to a node or is translated to a scalar, the chain gives the same one only there. The schema
is one that conventions of this library finished. -/
theorem casts_bind_innermost {m : Model} {conventions : List Convention} {t : Translator}
    {q : Select} {path : OutputPath} {shape : EntityShape} {types : List String} {single : String}
    (hm : m.Sorted) (h : m.finish conventions = .ok t.schema)
    (hq : q.mapped path = .ok (.entity shape))
    (hchain : List.IsChain (fun a b => t.schema.areRelated a b) (shape.entityType :: types))
    (hderives : t.schema.isAssignable shape.entityType single)
    {bufferType type : HostType} {name : String} {behind : List String → HostExpr}
    (hbehind : behind = shape.memberBehind path bufferType name type) :
    (∀ stripped, t.visit q stripped (behind types)
        = t.visit q stripped (behind [t.schema.castType shape.entityType types]))
      ∧ (t.schema.member? (t.schema.castType shape.entityType types) name
          = t.schema.member? single name →
        t.translate q (behind types) = t.translate q (behind [single]))
      ∧ (∀ stripped node, (t.visit q stripped (behind [single])).Yields node →
        ((t.visit q stripped (behind types)).Yields node
          ↔ t.schema.member? (t.schema.castType shape.entityType types) name
            = t.schema.member? single name))
      ∧ ∀ s, t.translate q (behind [single]) = .ok (some s) →
        (t.translate q (behind types) = .ok (some s)
          ↔ t.schema.member? (t.schema.castType shape.entityType types) name
            = t.schema.member? single name) := by
  have hs : t.schema.Sorted := Model.finish_sorted hm h
  have hc : t.schema.Rooted := (Model.finish_eq_ok h).1
  have hl : t.schema.Linked := Model.finish_linked h
  have hvalid := Model.finish_valid h
  obtain ⟨root, hroot⟩ : ∃ root, t.schema.find? shape.entityType = some root := by
    refine Catalog.exists_of_areRelated (a := single) ?_
    rw [Catalog.areRelated, hderives, Bool.or_true]
  have hself : t.schema.isAssignable shape.entityType shape.entityType := by
    have hmem := Catalog.find?_mem hroot
    rw [← Catalog.find?_name hroot]
    exact (Catalog.isAssignable_iff hs hc hmem hmem).mpr (.self hmem)
  have hvisit := visit_memberBehind (t := t) hq bufferType name type
  rw [← hbehind] at hvisit
  have hbind := EntityShape.bindMember_requestedType hs hc hl hroot
    (fun _ => Schema.areRelated_of_find? hchain) name
  -- a single conversion to a derived type is a chain too, and asks for that type
  have hbindSingle : ∀ derived, t.schema.isAssignable shape.entityType derived →
      shape.bindMember t.schema name (some (shape.requestedType [derived])) false
        = shape.bindFound t.schema false (t.schema.member? derived name) := by
    intro derived hderived
    have hrelated : List.IsChain (fun a b => t.schema.areRelated a b)
        [shape.entityType, derived] := by
      simp [Catalog.areRelated, hderived]
    rw [EntityShape.bindMember_requestedType hs hc hl hroot
      (fun _ => Schema.areRelated_of_find? hrelated) name, Schema.castType_singleton hderived]
  refine ⟨?_, ?_, ?_, ?_⟩
  · intro stripped
    rw [hvisit, hvisit, hbind, hbindSingle _ (Schema.isAssignable_castType hself types)]
  · intro hmember
    rw [Translator.translate, Translator.translate, hvisit, hvisit, hbind, hmember,
      hbindSingle _ hderives]
  · intro stripped node hnode
    rw [hvisit, hbindSingle _ hderives] at hnode
    rw [hvisit, hbind]
    exact EntityShape.bindFound_eq_iff hnode
  · intro s hsingle
    rw [translate_eq_ok_iff hvalid (hvisit _ _), hbindSingle _ hderives] at hsingle
    rw [translate_eq_ok_iff hvalid (hvisit _ _), hbind]
    exact EntityShape.bindFound_eq_iff hsingle

/-- A translator of queries for animals. -/
def speciesTranslator : Translator where
  schema := species

/-- The query of all animals. -/
def allAnimals : ShapedQuery where
  select :=
    { entityType := "Animal"
      collection := "Animal"
      mapping := [(.root, .entity (.root "Animal" Select.rootAlias))] }
  shaper := .shaper "Animal" (.projected .root (.entity "Animal"))

theorem create_allAnimals :
    ShapedQuery.create speciesTranslator "Animal" = .ok allAnimals := rfl

/-- A member of an animal that is seen as a mammal and then as a dog. -/
def ofDog (name : String) (types : List String) : HostExpr :=
  .member (allAnimals.shaper.casts types) name .string

/-- The identity of a dog is found on the way over mammals. -/
theorem casts_bind_innermost_id : ∃ s,
    speciesTranslator.translate allAnimals.select (ofDog "Id" ["Dog"]) = .ok (some s)
      ∧ speciesTranslator.translate allAnimals.select (ofDog "Id" ["Mammal", "Dog"])
        = .ok (some s) := by
  have hchain : List.IsChain (fun a b => species.areRelated a b) ["Animal", "Mammal", "Dog"] := by
    decide
  -- both types have one identity, so that the chain binds what the single cast does
  have hderives : species.isAssignable "Animal" "Dog" := by decide
  have hmember : species.member? (species.castType "Animal" ["Mammal", "Dog"]) "Id"
      = species.member? "Dog" "Id" := by decide
  have hsingle : speciesTranslator.translate allAnimals.select (ofDog "Id" ["Dog"])
      = .ok (some _) := rfl
  have hbehind : ofDog "Id" = (EntityShape.root "Animal" Select.rootAlias).memberBehind .root
      (.entity "Animal") "Id" .string := rfl
  have hfinish : speciesModel.finish (Convention.defaults .typeName)
      = .ok speciesTranslator.schema := finish_speciesModel
  have hmapped : allAnimals.select.mapped .root
      = .ok (.entity (.root "Animal" Select.rootAlias)) := rfl
  have hbinds := casts_bind_innermost (by decide) hfinish hmapped hchain hderives hbehind
  exact ⟨_, hsingle, (hbinds.2.2.2 _ hsingle).mpr hmember⟩

/-- The document of an animal. -/
def animalDocument : Access := .root "Animal" Select.rootAlias

/-- Dogs bark, and have their names on a tag. Dogs that are found among mammals do not bark, and
have the names of animals. -/
theorem dogs_do_not_bark_as_mammals :
    speciesModel.Sorted ∧ speciesModel.finish (Convention.defaults .typeName) = .ok species
      ∧ ShapedQuery.create speciesTranslator "Animal" = .ok allAnimals
      ∧ List.IsChain (fun a b => species.areRelated a b) ["Animal", "Mammal", "Dog"]
      ∧ species.isAssignable "Animal" "Dog"
      ∧ (∃ bark, species.member? "Dog" "Bark" = some (.property bark)
        ∧ speciesTranslator.translate allAnimals.select (ofDog "Bark" ["Dog"])
          = .ok (some (.field (.ofProperty bark animalDocument))))
      ∧ speciesTranslator.translate allAnimals.select (ofDog "Bark" ["Mammal", "Dog"]) = .ok none
      ∧ species.member? "Dog" "Name" = some (.property dogName)
      ∧ speciesTranslator.translate allAnimals.select (ofDog "Name" ["Dog"])
        = .ok (some (.field (.ofProperty dogName animalDocument)))
      ∧ ∃ name, name.declaringType = "Animal"
        ∧ speciesTranslator.translate allAnimals.select (ofDog "Name" ["Mammal", "Dog"])
          = .ok (some (.field (.ofProperty name animalDocument))) := by
  have hm : speciesModel.Sorted := by decide
  have hchain : List.IsChain (fun a b => species.areRelated a b) ["Animal", "Mammal", "Dog"] := by
    decide
  exact ⟨hm, finish_speciesModel, create_allAnimals, hchain, by decide,
    ⟨_, rfl, rfl⟩, rfl, rfl, rfl, ⟨_, rfl, rfl⟩⟩

end Odm
