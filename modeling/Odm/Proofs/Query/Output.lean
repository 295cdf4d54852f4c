import Mathlib.Data.List.Nodup
import Mathlib.Data.List.Perm.Subperm
import Odm.Proofs.Success
import Odm.Proofs.Table
import Odm.Proofs.Text.Lowercase
import Odm.Query.FindPlan

/-!
# Output fields

The output fields of a statement can be told apart, by their nodes as well as by their names
without regard to case, and none of them is called `value`. An empty output is like that, and
every further field keeps it so: a node that is put out already keeps its field, and a new one
gets a name that is free.

A free name is searched by putting numbers behind the wanted one. That search comes to an end,
because numbers make ever new names, also in lower case, while there are only so many to avoid. So
the projection of a find plan, which is a table by the names of the fields, loses none of them.
-/

namespace Odm

namespace Select

/-! ## The search for a name -/

/-- The search for a name: one that is free is taken, and after one that is not the wanted name
with the next number behind it is tried. -/
inductive Search (taken : List String) (wanted : String) : String → Nat → String → Prop where
  | found {name : String} {next : Nat} :
    isFree taken name → Search taken wanted name next name
  | again {name found : String} {next : Nat} :
    ¬ isFree taken name → Search taken wanted (wanted ++ toString next) (next + 1) found →
    Search taken wanted name next found

variable {taken : List String} {wanted : String}

/-- The names to be avoided, in lower case. -/
def avoided (taken : List String) : List String := (reservedName :: taken).map lowercase

theorem isFree_iff {name : String} : isFree taken name ↔ lowercase name ∉ avoided taken := by
  rw [avoided, List.map_cons, List.mem_cons, List.mem_map, not_or, isFree, Bool.not_eq_true',
    Bool.or_eq_false_iff, List.any_eq_false]
  simp [sameName]

/-- The choices for a name are different from each other in lower case. -/
theorem nodup_nameChoices (name : String) (n : Nat) :
    ((nameChoices name n).map lowercase).Nodup := by
  rw [nameChoices, List.map_cons, List.map_map, List.nodup_cons]
  refine ⟨?_, ?_⟩
  · intro h
    obtain ⟨i, _, hi⟩ := List.mem_map.mp h
    exact lowercase_append_ne name i hi
  · rw [List.nodup_iff_pairwise_ne, List.pairwise_map]
    refine List.nodup_range.imp ?_
    intro i j hne heq
    exact hne (lowercase_append_injective heq)

/-- **One of the choices is free**, as there are more of them than names to avoid. -/
theorem exists_free (taken : List String) (wanted : String) :
    ∃ name ∈ nameChoices wanted taken.length, isFree taken name := by
  by_contra hnone
  have hsub : (nameChoices wanted taken.length).map lowercase ⊆ avoided taken := by
    intro low hlow
    obtain ⟨name, hname, rfl⟩ := List.mem_map.mp hlow
    by_contra hfree
    exact hnone ⟨name, hname, isFree_iff.mpr hfree⟩
  have hle := (List.subperm_of_subset (nodup_nameChoices wanted taken.length) hsub).length_le
  simp only [nameChoices, avoided, List.length_map, List.length_cons, List.length_range] at hle
  omega

/-- Choices in their order are what the search tries. -/
theorem search_of_find? {count : Nat} :
    ∀ {name found : String} {next : Nat},
      (name :: (List.range' next count).map fun i => wanted ++ toString i).find? (isFree taken)
        = some found →
      Search taken wanted name next found := by
  induction count with
  | zero =>
    intro name found next h
    obtain ⟨hfree, hmem⟩ := And.intro (List.find?_some h) (List.mem_of_find?_eq_some h)
    rw [List.mem_singleton.mp hmem] at hfree ⊢
    exact .found hfree
  | succ count ih =>
    intro name found next h
    rw [List.find?_cons] at h
    split at h
    · -- a name that is free ends the search, and one that is taken is tried with the next number
      rename_i hfree
      cases h
      exact .found hfree
    · rename_i hfree
      exact .again (by simp [hfree]) (ih h)

/-- **The search for a name comes to an end**, and with the fresh name. -/
theorem search_freshName (taken : List String) (wanted : String) :
    Search taken wanted wanted 0 (freshName taken wanted) := by
  obtain ⟨name, hmem, hfree⟩ := exists_free taken wanted
  obtain ⟨found, hfound⟩ := Option.isSome_iff_exists.mp (List.find?_isSome.mpr ⟨name, hmem, hfree⟩)
  rw [freshName, hfound, Option.getD_some]
  rw [nameChoices, List.range_eq_range'] at hfound
  exact search_of_find? hfound

/-- The name that is found is free. -/
theorem Search.isFree {name found : String} {next : Nat}
    (h : Search taken wanted name next found) : isFree taken found := by
  induction h with
  | found hfree => exact hfree
  | again _ _ ih => exact ih

/-! ## Fields that can be told apart -/

/-- Fields that can be told apart, by their names without regard to case and by their nodes. -/
structure Distinct (fields : List OutputField) : Prop where
  names : (fields.map fun f => lowercase f.name).Nodup
  reserved : ∀ f ∈ fields, lowercase f.name ≠ "value"
  nodes : (fields.map (·.node)).Nodup

theorem distinct_nil : Distinct [] where
  names := .nil
  reserved := nofun
  nodes := .nil

variable {q q' : Select} {node : Node} {preferred : Option String}

/-- A node that is put out already keeps its field. -/
theorem addOutput_of_mem {i : Nat} {f : OutputField} (h : Distinct q.output)
    (hf : q.output[i]? = some f) : q.addOutput f.node preferred = (i, q) := by
  obtain ⟨hi, hget⟩ := List.getElem?_eq_some_iff.mp hf
  have hfind : q.output.findIdx? (·.node = f.node) = some i := by
    rw [List.findIdx?_eq_some_iff_getElem]
    refine ⟨hi, by simp [hget], ?_⟩
    intro j hj hnode
    have hnodes : (q.output.map (·.node))[j]? = (q.output.map (·.node))[i]? := by
      rw [List.getElem?_map, List.getElem?_map, hf, List.getElem?_eq_getElem (by omega)]
      simpa using hnode
    have hlt : j < (q.output.map (·.node)).length := by
      rw [List.length_map]
      omega
    exact absurd ((List.getElem?_inj hlt h.nodes).mp hnodes) (by omega)
  rw [addOutput, hfind]

/-- A new node gets a field of its own, with the fresh name. -/
theorem addOutput_of_not_mem (h : node ∉ q.output.map (·.node)) :
    q.addOutput node preferred = (q.output.length, { q with output := q.output
      ++ [⟨node, freshName (q.output.map (·.name)) (wantedName node preferred)⟩] }) := by
  have hfind : q.output.findIdx? (·.node = node) = none := by
    rw [List.findIdx?_eq_none_iff]
    intro f hf
    simp only [decide_eq_false_iff_not]
    rintro rfl
    exact h (List.mem_map_of_mem hf)
  rw [addOutput, hfind]

/-- One more field with a new node and a free name. -/
theorem Distinct.append {fields : List OutputField} {name : String} (h : Distinct fields)
    (hnode : node ∉ fields.map (·.node)) (hfree : isFree (fields.map (·.name)) name) :
    Distinct (fields ++ [⟨node, name⟩]) := by
  rw [isFree_iff, avoided, List.map_cons, List.mem_cons, not_or, List.map_map] at hfree
  obtain ⟨hreserved, hname⟩ := hfree
  refine ⟨?_, ?_, ?_⟩
  · rw [List.map_append, List.map_singleton, ← List.concat_eq_append]
    exact h.names.concat hname
  · intro f hf
    rcases List.mem_append.mp hf with hf | hf
    · exact h.reserved f hf
    · rw [List.mem_singleton.mp hf]
      exact hreserved
  · rw [List.map_append, List.map_singleton, ← List.concat_eq_append]
    exact h.nodes.concat hnode

/-- **A further field can be told apart from the others.** -/
theorem addOutput_distinct (h : Distinct q.output) (node : Node) (preferred : Option String) :
    Distinct (q.addOutput node preferred).2.output := by
  by_cases hnode : node ∈ q.output.map (·.node)
  · obtain ⟨f, hf, rfl⟩ := List.mem_map.mp hnode
    obtain ⟨i, hi⟩ := List.mem_iff_getElem?.mp hf
    rw [addOutput_of_mem h hi]
    exact h
  · rw [addOutput_of_not_mem hnode]
    exact h.append hnode (search_freshName _ _).isFree

theorem addOutputs_distinct {entries : List (OutputPath × Node)} :
    ∀ {q : Select}, Distinct q.output → Distinct (q.addOutputs entries).1.output := by
  induction entries with
  | nil => exact fun h => h
  | cons entry rest ih =>
    intro q h
    exact ih (addOutput_distinct h entry.2 entry.1.last?)

theorem applyProjection_distinct (h : Distinct q.output) : Distinct q.applyProjection.output := by
  unfold applyProjection
  split
  · exact h
  · exact addOutputs_distinct h

/-! ## Statements in the making -/

/-- What becomes of a statement by calls that may add output fields, and by anything else that
leaves its output alone, in any order. -/
inductive Projecting (start : Select) : Select → Prop where
  | start : Projecting start start
  | add {q : Select} (node : Node) (preferred : Option String) :
    Projecting start q → Projecting start (q.addOutput node preferred).2
  | apply {q : Select} : Projecting start q → Projecting start q.applyProjection
  | elsewhere {q q' : Select} :
    Projecting start q → q'.output = q.output → Projecting start q'

/-- **In every run the fields can be told apart.** -/
theorem Projecting.distinct {start : Select} (h : Projecting start q)
    (hstart : Distinct start.output) : Distinct q.output := by
  induction h with
  | start => exact hstart
  | add node preferred _ ih => exact addOutput_distinct ih node preferred
  | apply _ ih => exact applyProjection_distinct ih
  | elsewhere _ houtput ih => rwa [houtput]

end Select

/-! ## The projection of a plan -/

namespace FindPlan

/-- The table of the values of some fields, and of what was in it before: one entry for each. -/
structure Holds (parameters : Parameters) (fields : List OutputField)
    (before after : Table String Value) : Prop where
  keys : after.keys.Perm (before.keys ++ fields.map (·.name))
  value : ∀ f ∈ fields, ∃ v, outputValue parameters f.node = .ok v
    ∧ Table.get? after f.name = some v
  other : ∀ name ∉ fields.map (·.name), Table.get? after name = Table.get? before name

theorem holds_foldlM {parameters : Parameters} {fields : List OutputField} :
    ∀ {before after : Table String Value}, (fields.map (·.name)).Nodup →
      (∀ f ∈ fields, f.name ∉ before.keys) →
      fields.foldlM (fun table f => do
        return Table.insert table f.name (← outputValue parameters f.node)) before = .ok after →
      Holds parameters fields before after := by
  induction fields with
  | nil =>
    intro before after _ _ h
    cases Except.pure_eq_ok_iff.mp h
    exact ⟨by rw [List.map_nil, List.append_nil], nofun, fun _ _ => rfl⟩
  | cons f rest ih =>
    intro before after hnodup hnew h
    rw [List.map_cons, List.nodup_cons] at hnodup
    obtain ⟨hf, hrest⟩ := List.forall_mem_cons.mp hnew
    rw [List.foldlM_cons] at h
    obtain ⟨table, hfirst, h⟩ := Except.bind_eq_ok_iff.mp h
    obtain ⟨v, hv, hfirst⟩ := Except.bind_eq_ok_iff.mp hfirst
    cases Except.pure_eq_ok_iff.mp hfirst
    have hkeys := Table.keys_insert_perm hf v
    have hlater : ∀ g ∈ rest, g.name ∉ (Table.insert before f.name v).keys := by
      intro g hg hmem
      rcases List.mem_cons.mp (hkeys.mem_iff.mp hmem) with heq | hmem
      · exact hnodup.1 (heq ▸ List.mem_map_of_mem hg)
      · exact hrest g hg hmem
    obtain ⟨hperm, hvalue, hother⟩ := ih hnodup.2 hlater h
    refine ⟨?_, ?_, ?_⟩
    · exact (hperm.trans (hkeys.append_right _)).trans List.perm_middle.symm
    · refine List.forall_mem_cons.mpr ⟨⟨v, hv, ?_⟩, hvalue⟩
      -- no later field has this name, so its value stays
      rw [hother f.name hnodup.1, Table.get?_insert_self]
    · intro name hname
      rw [List.map_cons, List.mem_cons, not_or] at hname
      rw [hother name hname.2, Table.get?_insert_ne _ hname.1]

/-- What the parts of a plan are made from. -/
structure MadeOf (s : Schema) (parameters : Parameters) (q : Select) (plan : FindPlan) : Prop where
  collection : plan.collection = q.collection
  filter : ∃ predicate, predicateFilter parameters q = .ok predicate
    ∧ plan.filter = conjunction ((discriminatorFilter? s q).toList ++ predicate.toList)
  sort : q.orderings.mapM sortKey = .ok plan.sort
  projection : projection? parameters q = .ok plan.projection
  skip : pagingCount? parameters q.offset = .ok plan.skip
  limit : pagingCount? parameters q.limit = .ok plan.limit
  distinct : plan.distinct = q.isDistinct

theorem madeOf_ofSelect {s : Schema} {parameters : Parameters} {q : Select} {plan : FindPlan}
    (h : ofSelect s parameters q = .ok plan) : MadeOf s parameters q plan := by
  obtain ⟨predicate, hpredicate, h⟩ := Except.bind_eq_ok_iff.mp h
  obtain ⟨sort, hsort, h⟩ := Except.bind_eq_ok_iff.mp h
  obtain ⟨projection, hprojection, h⟩ := Except.bind_eq_ok_iff.mp h
  obtain ⟨skip, hskip, h⟩ := Except.bind_eq_ok_iff.mp h
  obtain ⟨limit, hlimit, h⟩ := Except.bind_eq_ok_iff.mp h
  cases Except.pure_eq_ok_iff.mp h
  exact ⟨rfl, ⟨predicate, hpredicate, rfl⟩, hsort, hprojection, hskip, hlimit, rfl⟩

/-- **A projection has one field for each output field**, and under its name its value. -/
theorem projection_of_ofSelect {s : Schema} {parameters : Parameters} {q : Select}
    {plan : FindPlan} {projection : Value} (hq : Select.Distinct q.output)
    (hplan : ofSelect s parameters q = .ok plan) (hprojection : plan.projection = some projection) :
    ∃ fields, projection = .obj fields ∧ Holds parameters q.output [] fields := by
  have hfound := (madeOf_ofSelect hplan).projection
  rw [hprojection] at hfound
  unfold projection? at hfound
  split at hfound
  · cases hfound
  · obtain ⟨fields, hfields, hfound⟩ := Except.bind_eq_ok_iff.mp hfound
    cases Except.pure_eq_ok_iff.mp hfound
    refine ⟨fields, rfl, holds_foldlM ?_ nofun hfields⟩
    -- names that differ in lower case differ
    have hnames : ((q.output.map (·.name)).map lowercase).Nodup := by
      rw [List.map_map]
      exact hq.names
    exact hnames.of_map lowercase

end FindPlan

/-! ## Every run -/

namespace Select

/-- What holds of the output of a statement. Its fields can be told apart. A node that is put out
already keeps its field, whatever name is preferred for it; any other one gets a field behind the
others, with the name that the search ends with. The projection of a find plan, where there is
one, has one field for each output field, with its value. -/
structure ToldApart (q : Select) : Prop extends Distinct q.output where
  repeated : ∀ i f, q.output[i]? = some f → ∀ preferred, q.addOutput f.node preferred = (i, q)
  added : ∀ node, node ∉ q.output.map (·.node) → ∀ preferred, ∃ name,
    Search (q.output.map (·.name)) (wantedName node preferred) (wantedName node preferred) 0 name
      ∧ q.addOutput node preferred
        = (q.output.length, { q with output := q.output ++ [⟨node, name⟩] })
  projection : ∀ s parameters plan projection, FindPlan.ofSelect s parameters q = .ok plan →
    plan.projection = some projection →
    ∃ fields, projection = .obj fields
      ∧ (fields.map Prod.fst).Perm (q.output.map (·.name))
      ∧ ∀ f ∈ q.output, ∃ v, FindPlan.outputValue parameters f.node = .ok v
        ∧ Table.get? fields f.name = some v

/-- **Every search for a name ends, and output fields are told apart in every run** of calls for
them. -/
theorem output_toldApart {start q : Select} (hstart : start.output = [])
    (hrun : Projecting start q) :
    (∀ taken wanted, ∃ name, Search taken wanted wanted 0 name) ∧ q.ToldApart := by
  have hq : Distinct q.output := hrun.distinct (hstart ▸ distinct_nil)
  refine ⟨fun taken wanted => ⟨_, search_freshName taken wanted⟩, hq, ?_, ?_, ?_⟩
  · intro i f hf preferred
    exact addOutput_of_mem hq hf
  · intro node hnode preferred
    exact ⟨_, search_freshName _ _, addOutput_of_not_mem hnode⟩
  · intro s parameters plan projection hplan hprojection
    obtain ⟨fields, rfl, hfields⟩ := FindPlan.projection_of_ofSelect hq hplan hprojection
    exact ⟨fields, rfl, hfields.keys, hfields.value⟩

/-- A statement on pets that puts out nothing yet. -/
def allPets : Select where
  entityType := "Pet"
  collection := "pets"
  mapping := [(.root, .entity (.root "Pet" rootAlias))]

/-- The statement with numbers put out under names that collide with the reserved one, with each
other or with a name that has got a number already, and then with the pets themselves. -/
def collidingPets : Select :=
  let requests := [(1, "Value"), (2, "VALUE0"), (3, "Ärger"), (4, "ärger"), (1, "one")]
  let number (q : Select) (request : Int × String) : Select :=
    (q.addOutput (.scalar (.constant (.int request.1) .int32 none)) (some request.2)).2
  (requests.foldl number allPets).applyProjection

theorem output_toldApart_colliding :
    allPets.output = [] ∧ Projecting allPets collidingPets
      ∧ collidingPets.output.map (·.name) = ["Value0", "VALUE00", "Ärger", "ärger0", "c"]
      ∧ (∀ taken wanted, ∃ name, Search taken wanted wanted 0 name)
      ∧ collidingPets.ToldApart := by
  have hrun : Projecting allPets collidingPets :=
    .apply (.add _ _ (.add _ _ (.add _ _ (.add _ _ (.add _ _ .start)))))
  exact ⟨rfl, hrun, by decide +kernel, output_toldApart rfl hrun⟩

end Select

end Odm
