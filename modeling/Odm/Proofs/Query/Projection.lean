import Odm.Proofs.Query.Output

/-!
# Projected members stay reachable

Applying the projection of a statement moves what members are mapped to into its output, and leaves
at each member the position of its field. Nodes are put out once, so several members may share a
field, or have one that was there before; and fields get other names on the way. None of this loses
a node. Adding output only ever puts a field behind the others, so the output that there was is the
beginning of the output that there is, a field that was given out keeps its position, and its node
never changes.

What one call for a field does is `Added`. All calls of a projection together keep the beginning of
the output in the same way, and each of them answers with a position at which the later ones still
find the node.
-/

namespace Odm

namespace Select

/-! ## More output -/

/-- The same statement with more output, if any, behind that which it has. -/
structure Extends (q q' : Select) : Prop where
  output : q.output <+: q'.output
  elsewhere : q' = { q with output := q'.output }

namespace Extends

variable {q q' q'' : Select}

theorem refl (q : Select) : q.Extends q := ⟨List.prefix_rfl, rfl⟩

theorem trans (h : q.Extends q') (h' : q'.Extends q'') : q.Extends q'' where
  output := h.output.trans h'.output
  elsewhere := calc
    q'' = { q' with output := q''.output } := h'.elsewhere
    _ = { q with output := q''.output } :=
      congrArg (fun r : Select => { r with output := q''.output }) h.elsewhere

theorem mapping (h : q.Extends q') : q'.mapping = q.mapping := by
  rw [h.elsewhere]

theorem isProjected (h : q.Extends q') : q'.isProjected = q.isProjected := by
  rw [h.elsewhere]

end Extends

theorem getElem?_of_prefix {fields fields' : List OutputField} (h : fields <+: fields') {i : Nat}
    {f : OutputField} (hf : fields[i]? = some f) : fields'[i]? = some f := by
  obtain ⟨hi, hget⟩ := List.getElem?_eq_some_iff.mp hf
  rw [List.prefix_iff_getElem?.mp h i hi, hget]

/-- The statement `q'` has the node at a position of its output, behind or among that of `q`. -/
structure Added (q : Select) (node : Node) (i : Nat) (q' : Select) : Prop extends
    Extends q q' where
  found : ∃ f, q'.output[i]? = some f ∧ f.node = node

/-- **A call for a field answers with a position of the node** and moves no field. -/
theorem addOutput_added (q : Select) (node : Node) (preferred : Option String) :
    Added q node (q.addOutput node preferred).1 (q.addOutput node preferred).2 := by
  unfold addOutput
  cases hfind : q.output.findIdx? (·.node = node) with
  | some i =>
    obtain ⟨hi, hnode, _⟩ := List.findIdx?_eq_some_iff_getElem.mp hfind
    exact ⟨.refl q, _, List.getElem?_eq_getElem hi, of_decide_eq_true hnode⟩
  | none => exact ⟨⟨List.prefix_append _ _, rfl⟩, _, List.getElem?_concat_length, rfl⟩

/-! ## Fields for a mapping -/

/-- The mapping `positions` has the members of `entries`, and at each the position at which the
output has its node. -/
structure Reaches (entries positions : Table OutputPath Node) (output : List OutputField) :
    Prop where
  keys : positions.keys = entries.keys
  found : ∀ path node, entries.get? path = some node → ∃ i f,
    positions.get? path = some (position i) ∧ output[i]? = some f ∧ f.node = node

/-- More output does not change what is reached. -/
theorem Reaches.mono {entries positions : Table OutputPath Node}
    {output output' : List OutputField} (h : Reaches entries positions output)
    (houtput : output <+: output') : Reaches entries positions output' where
  keys := h.keys
  found path node hnode := by
    obtain ⟨i, f, hi, hf, hfnode⟩ := h.found path node hnode
    exact ⟨i, f, hi, getElem?_of_prefix houtput hf, hfnode⟩

theorem addOutputs_extends (entries : List (OutputPath × Node)) :
    ∀ q : Select, q.Extends (q.addOutputs entries).1 := by
  induction entries with
  | nil => exact .refl
  | cons entry rest ih =>
    intro q
    exact (addOutput_added q entry.2 entry.1.last?).toExtends.trans (ih _)

/-- **The positions of a mapping reach what was mapped**, when all its fields have been added. -/
theorem addOutputs_reaches (entries : List (OutputPath × Node)) : ∀ q : Select,
    Reaches entries (q.addOutputs entries).2 (q.addOutputs entries).1.output := by
  induction entries with
  | nil => exact fun q => ⟨rfl, nofun⟩
  | cons entry rest ih =>
    intro q
    obtain ⟨path, node⟩ := entry
    have hadded := addOutput_added q node path.last?
    have hrest := ih (q.addOutput node path.last?).2
    refine ⟨congrArg (path :: ·) hrest.keys, ?_⟩
    intro path' node' hnode
    rw [Table.get?_cons] at hnode
    by_cases hpath : path = path'
    · rw [if_pos hpath] at hnode
      cases hnode
      -- later members add their fields behind this one
      obtain ⟨f, hf, hfnode⟩ := hadded.found
      have hlater := (addOutputs_extends rest (q.addOutput node path.last?).2).output
      exact ⟨_, f, if_pos hpath, getElem?_of_prefix hlater hf, hfnode⟩
    · rw [if_neg hpath] at hnode
      obtain ⟨i, f, hi, hf, hfnode⟩ := hrest.found path' node' hnode
      exact ⟨i, f, (if_neg hpath).trans hi, hf, hfnode⟩

theorem applyProjection_output (q : Select) : q.output <+: q.applyProjection.output := by
  unfold applyProjection
  split
  · exact List.prefix_rfl
  · exact (addOutputs_extends q.mapping q).output

theorem applyProjection_reaches {q : Select} (h : q.isProjected = false) :
    Reaches q.mapping q.applyProjection.mapping q.applyProjection.output := by
  unfold applyProjection
  rw [h]
  exact addOutputs_reaches q.mapping q

theorem isProjected_applyProjection (q : Select) : q.applyProjection.isProjected := by
  unfold applyProjection
  split
  · assumption
  · rfl

theorem applyProjection_of_isProjected {q : Select} (h : q.isProjected) :
    q.applyProjection = q := if_pos h

/-! ## Every run -/

/-- A statement after calls for fields, one after the other, each for a node under a preferred
name. -/
def addCalls (q : Select) (calls : List (Node × Option String)) : Select :=
  calls.foldl (fun q call => (q.addOutput call.1 call.2).2) q

/-- **Calls for fields change nothing but the output**, and that only at its end. -/
theorem addCalls_extends (calls : List (Node × Option String)) :
    ∀ q : Select, q.Extends (q.addCalls calls) := by
  induction calls with
  | nil => exact .refl
  | cons call rest ih =>
    intro q
    exact (addOutput_added q call.1 call.2).toExtends.trans (ih _)

/-- **Projected members stay reachable.** Applying the projection only adds to the output, and maps
each member to the position at which the output has the node that it was mapped to. Applying it
once more changes nothing. Whatever fields are called for later, the output that there was is not
touched, and so the positions stay right. -/
theorem projection_stays_reachable {q : Select} (h : q.isProjected = false) :
    q.output <+: q.applyProjection.output
      ∧ Reaches q.mapping q.applyProjection.mapping q.applyProjection.output
      ∧ q.applyProjection.applyProjection = q.applyProjection
      ∧ ∀ calls, q.applyProjection.Extends (q.applyProjection.addCalls calls)
        ∧ Reaches q.mapping (q.applyProjection.addCalls calls).mapping
          (q.applyProjection.addCalls calls).output
        ∧ (q.applyProjection.addCalls calls).applyProjection
          = q.applyProjection.addCalls calls := by
  have hreaches := applyProjection_reaches h
  have hprojected := isProjected_applyProjection q
  refine ⟨applyProjection_output q, hreaches, applyProjection_of_isProjected hprojected, ?_⟩
  intro calls
  have hextends := addCalls_extends calls q.applyProjection
  refine ⟨hextends, ?_, applyProjection_of_isProjected (hextends.isProjected.trans hprojected)⟩
  rw [hextends.mapping]
  exact hreaches.mono hextends.output

/-- A parameter as a part of a query. -/
def given (name : String) : Node := .scalar (.parameter name .int32 none)

/-- A statement that puts out an age, and to which two names of one thing and that age are
mapped. -/
def agedPets : Select :=
  { (allPets.addOutput (given "age") none).2 with
    mapping := Table.ofEntries [(["Nick"], given "name"), (["Age"], given "age"),
      (["Name"], given "name")] }

/-- Both names share a field, and the age keeps the one it has, also when the pets themselves are
put out later. -/
theorem projection_stays_reachable_aged :
    agedPets.isProjected = false
      ∧ agedPets.applyProjection.mapping
        = [(["Age"], position 0), (["Name"], position 1), (["Nick"], position 1)]
      ∧ Reaches agedPets.mapping
        (agedPets.applyProjection.addCalls
          [(.entity (.root "Pet" rootAlias), some "Name"), (given "age", none)]).mapping
        (agedPets.applyProjection.addCalls
          [(.entity (.root "Pet" rootAlias), some "Name"), (given "age", none)]).output := by
  have h : agedPets.isProjected = false := rfl
  exact ⟨h, by decide +kernel, ((projection_stays_reachable h).2.2.2 _).2.1⟩

end Select

end Odm
