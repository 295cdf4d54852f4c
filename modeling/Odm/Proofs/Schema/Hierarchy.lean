import Odm.Proofs.Schema.Conventions

/-!
# Hierarchies of a finished schema

The *skeleton* of a catalog is the names and base types of its entity types, and all walks along
the bases, up or down, depend on nothing else. Bases are checked, and each type is linked to those
below it, before the conventions run. What finishing a model asks of a convention is therefore that
it keeps the *lines* of inheritance, the names, bases and links of all types. The conventions of
this library do, since they fill in only what is left open.

So what the check of base types says of a model is true of its schema, however it was completed:
every hierarchy ends in a root, a type without a base, and every type is linked to the types that
its schema has below it.
-/

namespace Odm

namespace EntityType

/-- The name of a type and that of its base. -/
def bone (t : EntityType) : String × Option String := (t.name, t.base)

/-- What inheritance needs of a type: its name, its base and what it is linked to. -/
def line (t : EntityType) : String × Option String × List String := (t.name, t.base, t.below)

end EntityType

namespace Catalog

/-- The names and base types of all entity types. -/
def skeleton (c : Catalog) : List (String × Option String) := c.types.map EntityType.bone

theorem skeleton_of_frames (c : Catalog) : c.skeleton = c.frames.map EntityType.bone := by
  rw [skeleton, frames, List.map_map]
  rfl

/-- The lines of inheritance. -/
def lines (c : Catalog) : List (String × Option String × List String) :=
  c.types.map EntityType.line

theorem skeleton_of_lines {c c' : Catalog} (h : c'.lines = c.lines) : c'.skeleton = c.skeleton := by
  have hbones : ∀ d : Catalog, d.skeleton = d.lines.map fun line => (line.1, line.2.1) := by
    intro d
    rw [skeleton, lines, List.map_map]
    rfl
  rw [hbones, h, ← hbones]

theorem skeleton_link (c : Catalog) : c.link.skeleton = c.skeleton := by
  rw [skeleton, link, mapTypes, List.map_map]
  rfl

theorem find?_link (c : Catalog) (name : String) :
    c.link.find? name = (c.find? name).map c.linked :=
  find?_mapTypes (f := c.linked) (fun _ => rfl) name

theorem lines_mapTypes {c : Catalog} {f : EntityType → EntityType}
    (hf : ∀ t, (f t).line = t.line) : (c.mapTypes f).lines = c.lines := by
  rw [lines, mapTypes, List.map_map]
  exact List.map_congr_left fun t _ => hf t

end Catalog

/-! ## What is asked of conventions -/

/-- A step that leaves the names, bases and links of all types as they are. Everything else about
them it may fill in or change. A type without a base is a root: its base was not left open, and so
no step is to fill it in. -/
def CatalogStep.KeepsLines (step : CatalogStep) : Prop :=
  ∀ c c', step c = .ok c' → c'.lines = c.lines

/-- **The conventions of this library keep the lines of inheritance.** -/
theorem Convention.keepsLines (convention : Convention) :
    CatalogStep.KeepsLines convention.apply := by
  intro c c' h
  have hrun : applyAll [convention] c = .ok c' := by
    rw [applyAll, List.foldlM_cons, h]
    rfl
  refine applyAll_keeps (P := fun d => d.lines = c.lines) ?_ ?_ hrun rfl
  · intro d n hd
    rw [← hd, Catalog.modify, Catalog.lines_mapTypes]
    intro t
    split <;> rfl
  · intro d f hf hd
    rw [← hd, Catalog.lines_mapTypes]
    intro t
    -- names, bases and links are settled before a type is completed
    have hline := congrArg EntityType.line (hf t).settled
    exact hline

theorem Convention.keepsLines_of_mem {conventions : List Convention} {step : CatalogStep}
    (hstep : step ∈ conventions.map apply) : step.KeepsLines := by
  obtain ⟨convention, _, rfl⟩ := List.mem_map.mp hstep
  exact convention.keepsLines

namespace Catalog

/-- **Steps that keep the lines keep them one after the other.** -/
theorem lines_run {steps : List CatalogStep} {c c' : Catalog}
    (hsteps : ∀ step ∈ steps, step.KeepsLines) (h : c.run steps = .ok c') : c'.lines = c.lines := by
  refine Except.foldlM_keeps (P := fun d => d.lines = c.lines) ?_ h rfl
  intro d step d' hstep hd hd'
  rw [hsteps step hstep d d' hd', hd]

/-! ## Walks depend on the skeleton -/

theorem find?_bone (c : Catalog) (name : String) :
    (c.find? name).map EntityType.bone = c.skeleton.find? (·.1 = name) := by
  rw [skeleton, List.find?_map]
  rfl

theorem climb_bone {c c' : Catalog} (h : c'.skeleton = c.skeleton) (steps : Nat) :
    ∀ name, (c'.climb steps name).map EntityType.bone
      = (c.climb steps name).map EntityType.bone := by
  induction steps with
  | zero => exact fun _ => rfl
  | succ steps ih =>
    intro name
    have hfind := c.find?_bone name
    rw [← h, ← c'.find?_bone name] at hfind
    -- skeletons have names and bases, which is all that a climb reads
    rw [climb, climb]
    cases hf : c.find? name with
    | none =>
      rw [hf, Option.map_none, eq_comm, Option.map_eq_none_iff] at hfind
      rw [hfind]
    | some t =>
      rw [hf, Option.map_some, eq_comm, Option.map_eq_some_iff] at hfind
      obtain ⟨t', hf', hbone⟩ := hfind
      have hbase : t'.base = t.base := congrArg Prod.snd hbone
      rw [hf']
      dsimp only
      rw [hbase]
      cases t.base with
      | none => rw [List.map_singleton, List.map_singleton, hbone]
      | some base => rw [List.map_cons, List.map_cons, hbone, ih base]

theorem chain_bone {c c' : Catalog} (h : c'.skeleton = c.skeleton) (name : String) :
    (c'.chain name).map EntityType.bone = (c.chain name).map EntityType.bone := by
  have hlength : c'.types.length = c.types.length := by
    have hl := congrArg List.length h
    rwa [skeleton, skeleton, List.length_map, List.length_map] at hl
  rw [chain, chain, hlength, climb_bone h]

theorem children_bone {c c' : Catalog} (h : c'.skeleton = c.skeleton) (name : String) :
    (c'.children name).map EntityType.bone = (c.children name).map EntityType.bone := by
  have hbones : ∀ d : Catalog, (d.children name).map EntityType.bone
      = d.skeleton.filter (·.2 = some name) := by
    intro d
    rw [skeleton, List.filter_map]
    rfl
  rw [hbones, h, ← hbones]

theorem descend_bone {c c' : Catalog} (h : c'.skeleton = c.skeleton) (depth : Nat) :
    ∀ {level level' : List EntityType},
      level'.map EntityType.bone = level.map EntityType.bone →
      (c'.descend depth level').map EntityType.bone
        = (c.descend depth level).map EntityType.bone := by
  induction depth with
  | zero => exact fun _ => rfl
  | succ depth ih =>
    intro level level' hlevel
    -- the children of a type are those of its bone
    have hnext : ∀ (d : Catalog) (types : List EntityType), d.skeleton = c.skeleton →
        (types.flatMap fun t => d.children t.name).map EntityType.bone
          = (types.map EntityType.bone).flatMap fun bone =>
            (c.children bone.1).map EntityType.bone := by
      intro d types hd
      rw [List.map_flatMap, List.flatMap_map]
      congr 1
      funext t
      exact children_bone hd t.name
    rw [descend, descend, List.map_append, List.map_append, hlevel]
    congr 1
    exact ih (by rw [hnext c' level' h, hnext c level rfl, hlevel])

/-- What is below a type, by name, is a matter of the skeleton. -/
theorem descendants_bone {c c' : Catalog} (h : c'.skeleton = c.skeleton) (name : String) :
    (c'.descendants name).map (·.name) = (c.descendants name).map (·.name) := by
  have hlength : c'.types.length = c.types.length := by
    have hl := congrArg List.length h
    rwa [skeleton, skeleton, List.length_map, List.length_map] at hl
  have hbones := descend_bone h c.types.length (children_bone h name)
  have hnames := congrArg (List.map Prod.fst) hbones
  rw [List.map_map, List.map_map] at hnames
  rw [descendants, descendants, hlength]
  exact hnames

/-! ## Links -/

/-- Every type is linked to the types below it. -/
def Linked (c : Catalog) : Prop :=
  ∀ t ∈ c.types, t.below = (c.descendants t.name).map (·.name)

theorem linked_link (c : Catalog) : c.link.Linked := by
  intro t' ht'
  obtain ⟨t, _, rfl⟩ := List.mem_map.mp ht'
  exact (descendants_bone (skeleton_link c) t.name).symm

/-- Being linked is a matter of the lines. -/
theorem linked_of_lines {c c' : Catalog} (h : c'.lines = c.lines) (hc : c.Linked) : c'.Linked := by
  intro t' ht'
  have hmem : t'.line ∈ c.lines := h ▸ List.mem_map_of_mem ht'
  obtain ⟨t, ht, hline⟩ := List.mem_map.mp hmem
  have hname : t.name = t'.name := congrArg Prod.fst hline
  have hbelow : t.below = t'.below := congrArg (·.2.2) hline
  rw [← hbelow, hc t ht, hname, descendants_bone (skeleton_of_lines h)]

/-! ## Names that are found -/

theorem find?_name {c : Catalog} {name : String} {t : EntityType}
    (h : c.find? name = some t) : t.name = name := by
  simpa using List.find?_some h

theorem entityType_eq_ok {c : Catalog} {name : String} {t : EntityType}
    (h : c.entityType name = .ok t) : c.find? name = some t := by
  unfold entityType at h
  split at h
  · cases h
    assumption
  · cases h

/-- A chain has only types of the catalog, each found by its name. -/
theorem find?_of_mem_climb {c : Catalog} {steps : Nat} :
    ∀ {name : String} {t : EntityType}, t ∈ c.climb steps name → c.find? t.name = some t := by
  induction steps with
  | zero => intro name t h; cases h
  | succ steps ih =>
    intro name t h
    rw [climb] at h
    split at h
    · cases h
    · rename_i u hu
      have hself : c.find? u.name = some u := by rw [find?_name hu, hu]
      split at h
      · rw [List.mem_singleton.mp h, hself]
      · rcases List.mem_cons.mp h with rfl | h
        · exact hself
        · exact ih h

theorem chain_of_none {c : Catalog} {name : String} (h : c.find? name = none) :
    c.chain name = [] := by
  rw [chain]
  cases c.types.length with
  | zero => rfl
  | succ n => rw [climb, h]

/-- Navigations of a type, inherited or not, lead to types of the catalog. -/
theorem KnowsTargets.isSome {c : Catalog} (hc : c.KnowsTargets) {name : String}
    {n : Navigation} (hn : n ∈ c.navigations name) (hown : n.isOwnership) :
    (c.find? n.target).isSome := by
  obtain ⟨t, ht, hn⟩ := List.mem_flatMap.mp hn
  have htype := find?_of_mem_climb (List.mem_reverse.mp ht)
  exact hc t (List.mem_of_find?_eq_some htype) n hn hown

theorem mem_chain_of_root? {c : Catalog} {name : String} {root : EntityType}
    (h : c.root? name = some root) : root ∈ c.chain name := List.mem_of_getLast? h

theorem find?_root {c : Catalog} {name : String} {root : EntityType}
    (h : c.root? name = some root) : c.find? root.name = some root :=
  find?_of_mem_climb (mem_chain_of_root? h)

theorem mem_types_of_root? {c : Catalog} {name : String} {root : EntityType}
    (h : c.root? name = some root) : root ∈ c.types := List.mem_of_find?_eq_some (find?_root h)

/-- The properties of a root are among those of all types of its hierarchy. -/
theorem mem_properties_of_root? {c : Catalog} {name : String} {root : EntityType}
    {p : Property} (h : c.root? name = some root) (hp : p ∈ root.properties) :
    p ∈ c.properties name :=
  List.mem_flatMap.mpr ⟨root, List.mem_reverse.mpr (mem_chain_of_root? h), hp⟩

/-! ## Roots -/

/-- Every chain of base types ends in a type without a base. -/
def Rooted (c : Catalog) : Prop :=
  ∀ name root, c.root? name = some root → root.base = none

theorem rooted_of_checkBases {c : Catalog} (h : c.checkBases = .ok ()) : c.Rooted := by
  intro name root hroot
  have hmem := mem_chain_of_root? hroot
  cases hf : c.find? name with
  | none => rw [chain_of_none hf] at hmem; cases hmem
  | some t =>
    have hcheck := Except.forM_eq_ok_iff.mp h t (List.mem_of_find?_eq_some hf)
    -- the check of a type is about the end of its own chain
    have hlast : (c.chain t.name).getLast? = some root := by rw [find?_name hf]; exact hroot
    unfold checkBase at hcheck
    rw [hlast] at hcheck
    dsimp only at hcheck
    split at hcheck
    · assumption
    · split at hcheck
      · cases hcheck
      · cases hcheck

/-- Being rooted is a matter of the skeleton. -/
theorem rooted_of_skeleton {c c' : Catalog} (h : c'.skeleton = c.skeleton) (hc : c.Rooted) :
    c'.Rooted := by
  intro name root hroot
  have hlast := congrArg List.getLast? (chain_bone h name)
  rw [List.getLast?_map, List.getLast?_map] at hlast
  rw [root?] at hroot
  rw [hroot, Option.map_some, eq_comm, Option.map_eq_some_iff] at hlast
  -- the root before may have had other properties, but had the same base
  obtain ⟨root₀, hroot₀, hbone⟩ := hlast
  have hbase : root₀.base = root.base := congrArg Prod.snd hbone
  rw [← hbase]
  exact hc name root₀ hroot₀

end Catalog

namespace Model

variable {m : Model} {steps : List CatalogStep} {conventions : List Convention} {s : Schema}

theorem complete_lines (hsteps : ∀ step ∈ steps, step.KeepsLines) (h : m.complete steps = .ok s) :
    s.lines = m.link.lines := Catalog.lines_run hsteps (complete_eq_ok h).2.1

theorem complete_skeleton (hsteps : ∀ step ∈ steps, step.KeepsLines)
    (h : m.complete steps = .ok s) : s.skeleton = m.skeleton :=
  (Catalog.skeleton_of_lines (complete_lines hsteps h)).trans m.skeleton_link

/-- **Hierarchies end in roots** in every schema whose completion kept the lines. -/
theorem complete_rooted (hsteps : ∀ step ∈ steps, step.KeepsLines) (h : m.complete steps = .ok s) :
    s.Rooted :=
  Catalog.rooted_of_skeleton (complete_skeleton hsteps h)
    (Catalog.rooted_of_checkBases (complete_eq_ok h).1)

/-- **Types are linked to what is below them** in every schema whose completion kept the lines. -/
theorem complete_linked (hsteps : ∀ step ∈ steps, step.KeepsLines) (h : m.complete steps = .ok s) :
    s.Linked := Catalog.linked_of_lines (complete_lines hsteps h) (Catalog.linked_link _)

/-- A step that turns a root into a derived type goes unnoticed: cats are animals then, but animals
are linked to no cats. -/
example :
    (complete { types := [{ name := "Animal" }, { name := "Cat" }] }
        [fun c => .ok (c.modify "Cat" fun t => { t with base := some "Animal" }),
          Convention.discriminator.apply]).map
      (fun s => (s.isAssignable "Animal" "Cat", s.derived "Animal")) = .ok (true, []) := rfl

theorem finish_eq_ok (h : m.finish conventions = .ok s) :
    s.Rooted ∧ s.validate = .ok () :=
  ⟨complete_rooted (fun _ => Convention.keepsLines_of_mem) h, (complete_eq_ok h).2.2.1⟩

theorem finish_linked (h : m.finish conventions = .ok s) : s.Linked :=
  complete_linked (fun _ => Convention.keepsLines_of_mem) h

end Model

end Odm
