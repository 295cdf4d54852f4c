import Mathlib.Algebra.Group.Int.Defs
import Mathlib.Algebra.Group.Nat.Defs
import Odm.Proofs.Update.Element

/-!
# Numbers in sequence

A source keeps one generator for each declaring type and name, whoever asks for a value. So the
values for one such key do not depend on what is drawn for others in between, and not on how the
draws are spread over calls, entries or saves. Either all of them are numbers, and then the first is
one and each is the one before plus one, or none of them is, because the property that asked first
has another type.

The numbers have 64 bits whatever the type of their property is. A type that is narrower has no part
in it: after its largest value comes one that it cannot hold.
-/

namespace Odm

/-- The generator of the values of a property is kept under this key. -/
def Property.key (p : Property) : PropertyKey := (p.declaringType, p.name)

/-! ## Numbers and their types -/

/-- What a sequence gives after `n` other numbers. -/
def Generator.nth (n : Nat) : Int := (Int64.ofNat (n + 1)).toInt

theorem Generator.nth_eq {n : Nat} (h : n < 2 ^ 63 - 1) : nth n = n + 1 := by
  rw [nth, Int64.toInt_ofNat_of_lt (by omega)]
  exact Int.natCast_succ n

/-- The bits of the types that numbers are generated for. -/
def HostType.generatedBits? : HostType → Option Nat
  | .int16 => some 16
  | .int32 => some 32
  | .int64 => some 64
  | _ => none

/-- The number can be told with that many bits, one of which is for its sign. -/
def Fits (bits : Nat) (n : Int) : Prop := -2 ^ (bits - 1) ≤ n ∧ n < 2 ^ (bits - 1)

instance (bits : Nat) (n : Int) : Decidable (Fits bits n) := inferInstanceAs (Decidable (_ ∧ _))

/-- **The numbers that come first fit every type**, and all of them have 64 bits. -/
theorem fits_nth {bits n : Nat} (hbits : bits ≤ 64) (h : bits = 64 ∨ n + 1 < 2 ^ (bits - 1)) :
    Fits bits (Generator.nth n) := by
  rcases h with rfl | hn
  · exact ⟨Int64.le_toInt _, Int64.toInt_lt _⟩
  · have hle : 2 ^ (bits - 1) ≤ 2 ^ 63 := Nat.pow_le_pow_right (by decide) (by omega)
    have hpow : (2 ^ (bits - 1) : Int) = ((2 ^ (bits - 1) : Nat) : Int) :=
      (Int.natCast_pow 2 (bits - 1)).symm
    rw [Fits, Generator.nth_eq (by omega), hpow]
    generalize 2 ^ (bits - 1) = limit at hn
    omega

theorem HostType.generatedBits?_le {type : HostType} {bits : Nat}
    (h : type.generatedBits? = some bits) : bits ≤ 64 := by
  unfold generatedBits? at h
  split at h <;> cases h <;> decide

/-- What gives no number gives none after it either. -/
theorem Generator.next_of_ne_sequence {g : Generator} (h : ∀ next, g ≠ .sequence next)
    (entropy : Entropy) : (∀ m, (g.next entropy).1 ≠ .int m)
      ∧ ∀ next, (g.next entropy).2.1 ≠ .sequence next := by
  cases g with
  | sequence next => exact absurd rfl (h next)
  | objectId tag counter => exact ⟨nofun, nofun⟩
  | guid => exact ⟨nofun, nofun⟩

/-- A new generator is a sequence from one or gives no numbers, as the type has it. -/
theorem Generator.ofType?_eq_some {type : HostType} {entropy entropy' : Entropy} {g : Generator}
    (h : ofType? type entropy = some (g, entropy')) :
    g = ofOne ∨ type.generatedBits? = none ∧ ∀ next, g ≠ .sequence next := by
  unfold ofType? at h
  split at h
  · cases h
    exact .inr ⟨rfl, nofun⟩
  · cases h
    exact .inr ⟨rfl, nofun⟩
  iterate 3
    cases h
    exact .inl rfl
  · cases h

namespace ValueSource

variable {source mid source' : ValueSource} {key : PropertyKey} {p : Property} {v : Value} {n : Nat}

/-! ## One draw -/

/-- The generator that was made for a key. -/
def known (source : ValueSource) (key : PropertyKey) : Option Generator :=
  source.generators.lookup key

theorem known_keep_self (source : ValueSource) (key : PropertyKey) (g : Generator) :
    (source.keep key g).known key = some g := by
  rw [known, keep, List.lookup_cons, beq_self_eq_true]

theorem known_keep_ne (source : ValueSource) (g : Generator) {other : PropertyKey}
    (h : key ≠ other) : (source.keep other g).known key = source.known key := by
  rw [known, keep, List.lookup_cons, beq_eq_false_iff_ne.mpr h, known]
  -- the new generator is in front, so it remains to look up `key` among those that are kept
  induction source.generators with
  | nil => rfl
  | cons first rest ih =>
    obtain ⟨k, g'⟩ := first
    by_cases hk : k = other
    · subst hk -- the generator that is replaced is not that of the key
      rw [List.filter_cons_of_neg (by simp), List.lookup_cons, beq_eq_false_iff_ne.mpr h]
      exact ih
    · rw [List.filter_cons_of_pos (by simpa using hk), List.lookup_cons, List.lookup_cons]
      by_cases hkey : key = k
      · rw [hkey, beq_self_eq_true]
      · rw [beq_eq_false_iff_ne.mpr hkey]
        exact ih

/-- What a draw does: the property's generator gives the value and moves on, and no other one
does. -/
theorem next_eq_ok (h : source.next p = .ok (v, source')) :
    ∃ g entropy, source.generator? p = some (g, entropy) ∧ v = (g.next entropy).1
      ∧ source'.known p.key = some (g.next entropy).2.1
      ∧ ∀ key, key ≠ p.key → source'.known key = source.known key := by
  unfold next at h
  split at h
  · cases h
  · rename_i g entropy hg
    cases h
    refine ⟨g, entropy, hg, rfl, known_keep_self _ _ _, ?_⟩
    intro key hkey
    exact known_keep_ne source _ hkey

/-! ## Numbers or texts -/

/-- What is drawn next for the key is a number, and there were `n` before. -/
def Counts (source : ValueSource) (key : PropertyKey) (n : Nat) : Prop :=
  source.known key = some (.sequence (Int64.ofNat (n + 1))) ∨ n = 0 ∧ source.known key = none

/-- What is drawn for the key is no number. -/
def Spells (source : ValueSource) (key : PropertyKey) : Prop :=
  ∃ g, source.known key = some g ∧ ∀ next, g ≠ .sequence next

theorem counts_zero (entropy : Entropy) (key : PropertyKey) :
    ({ entropy := entropy } : ValueSource).Counts key 0 := .inr ⟨rfl, rfl⟩

/-- **One more number**, or a generator that gives none is made for a property of another type. -/
theorem Counts.next (h : source.Counts p.key n) (hnext : source.next p = .ok (v, mid)) :
    v = .int (Generator.nth n) ∧ mid.Counts p.key (n + 1)
      ∨ n = 0 ∧ p.type.unwrap.generatedBits? = none ∧ (∀ m, v ≠ .int m) ∧ mid.Spells p.key := by
  obtain ⟨g, entropy, hg, rfl, hself, _⟩ := next_eq_ok hnext
  -- a sequence gives the number it is at and goes on to the next one
  have hcount : ∀ k, g = .sequence (Int64.ofNat (k + 1)) →
      (g.next entropy).1 = .int (Generator.nth k) ∧ mid.Counts p.key (k + 1) := by
    rintro k rfl
    refine ⟨rfl, .inl ?_⟩
    rw [hself, Int64.ofNat_add (k + 1)]
    rfl
  rw [generator?] at hg
  -- the generator is there already, or it is made for the property's type
  rcases h with hknown | ⟨rfl, hknown⟩
  · rw [show source.generators.lookup (p.declaringType, p.name) = _ from hknown] at hg
    cases hg
    exact .inl (hcount n rfl)
  · rw [show source.generators.lookup (p.declaringType, p.name) = _ from hknown] at hg
    rcases Generator.ofType?_eq_some hg with rfl | ⟨htype, hne⟩
    · exact .inl (hcount 0 rfl)
    · obtain ⟨hv, hlater⟩ := Generator.next_of_ne_sequence hne entropy
      exact .inr ⟨rfl, htype, hv, _, hself, hlater⟩

theorem Spells.next (h : source.Spells p.key) (hnext : source.next p = .ok (v, mid)) :
    (∀ m, v ≠ .int m) ∧ mid.Spells p.key := by
  obtain ⟨g, entropy, hg, rfl, hself, _⟩ := next_eq_ok hnext
  obtain ⟨g', hknown, hne⟩ := h
  rw [generator?, show source.generators.lookup (p.declaringType, p.name) = _ from hknown] at hg
  cases hg
  obtain ⟨hv, hlater⟩ := Generator.next_of_ne_sequence hne source.entropy
  exact ⟨hv, _, hself, hlater⟩

/-- Draws for other keys leave the count alone. -/
theorem Counts.of_ne (h : source.Counts key n) (hkey : key ≠ p.key)
    (hnext : source.next p = .ok (v, mid)) : mid.Counts key n := by
  obtain ⟨g, entropy, _, _, _, hother⟩ := next_eq_ok hnext
  rwa [Counts, hother key hkey]

theorem Spells.of_ne (h : source.Spells key) (hkey : key ≠ p.key)
    (hnext : source.next p = .ok (v, mid)) : mid.Spells key := by
  obtain ⟨g, entropy, _, _, _, hother⟩ := next_eq_ok hnext
  rwa [Spells, hother key hkey]

/-! ## Draws one after the other -/

/-- Values drawn from a source one after the other, with the properties they are for. -/
inductive Drawn : ValueSource → List (Property × Value) → ValueSource → Prop where
  | nil {source : ValueSource} : Drawn source [] source
  | cons {source mid source' : ValueSource} {p : Property} {v : Value}
      {later : List (Property × Value)} : source.next p = .ok (v, mid) →
      Drawn mid later source' → Drawn source ((p, v) :: later) source'

/-- The draws for one key, in their order. -/
def drawsFor (key : PropertyKey) (drawn : List (Property × Value)) : List (Property × Value) :=
  drawn.filter fun draw => draw.1.key = key

variable {drawn later : List (Property × Value)}

theorem Drawn.append (h : Drawn source drawn mid) (hlater : Drawn mid later source') :
    Drawn source (drawn ++ later) source' := by
  induction h with
  | nil => exact hlater
  | cons hnext _ ih => exact .cons hnext (ih hlater)

theorem drawsFor_cons_self (p : Property) (v : Value) (drawn : List (Property × Value)) :
    drawsFor p.key ((p, v) :: drawn) = (p, v) :: drawsFor p.key drawn :=
  List.filter_cons_of_pos (by simp)

theorem drawsFor_cons_ne (h : key ≠ p.key) (v : Value) (drawn : List (Property × Value)) :
    drawsFor key ((p, v) :: drawn) = drawsFor key drawn :=
  List.filter_cons_of_neg (by simpa using Ne.symm h)

/-- Where something else than a number was drawn for a key, no number follows. -/
theorem Drawn.ne_int (h : Drawn source drawn source') (hspells : source.Spells key) :
    ∀ draw ∈ drawsFor key drawn, ∀ m, draw.2 ≠ .int m := by
  induction h with
  | nil => exact nofun
  | @cons source mid source' p v later hnext _ ih =>
    by_cases hkey : key = p.key
    · subst hkey
      obtain ⟨hv, hmid⟩ := hspells.next hnext
      rw [drawsFor_cons_self]
      exact List.forall_mem_cons.mpr ⟨hv, ih hmid⟩
    · rw [drawsFor_cons_ne hkey]
      exact ih (hspells.of_ne hkey hnext)

/-- **What is drawn for a key are numbers in sequence**, or there are no numbers, and then the
first draw was for a property of another type. -/
theorem Drawn.counted (h : Drawn source drawn source') (hcounts : source.Counts key n) :
    (∀ (i : Nat) (draw : Property × Value), (drawsFor key drawn)[i]? = some draw →
        draw.2 = .int (Generator.nth (n + i)))
      ∨ n = 0 ∧ (∃ draw, (drawsFor key drawn)[0]? = some draw
          ∧ draw.1.type.unwrap.generatedBits? = none)
        ∧ ∀ draw ∈ drawsFor key drawn, ∀ m, draw.2 ≠ .int m := by
  induction h generalizing n with
  | nil => exact .inl nofun
  | @cons source mid source' p v later hnext hlater ih =>
    by_cases hkey : key = p.key
    · subst hkey
      rw [drawsFor_cons_self]
      rcases hcounts.next hnext with ⟨rfl, hmid⟩ | ⟨rfl, htype, hv, hmid⟩
      · -- the next count is not zero, so that only numbers can follow
        have hrest := (ih hmid).resolve_right fun h => nomatch h.1
        refine .inl ?_
        intro i draw hi
        cases i with
        | zero =>
          cases hi
          rfl
        | succ i =>
          rw [hrest i draw hi, Nat.add_assoc, Nat.add_comm 1 i]
      · have hrest := hlater.ne_int hmid
        exact .inr ⟨rfl, ⟨_, rfl, htype⟩, List.forall_mem_cons.mpr ⟨hv, hrest⟩⟩
    · -- a draw for another key changes nothing for this one
      rw [drawsFor_cons_ne hkey]
      exact ih (hcounts.of_ne hkey hnext)

/-- Draws for integer properties are numbers in sequence. -/
theorem Drawn.numbers {entropy : Entropy} (h : Drawn { entropy := entropy } drawn source')
    (hinteger : ∀ draw ∈ drawn, draw.1.key = key → draw.1.type.unwrap.generatedBits?.isSome)
    {i : Nat} {draw : Property × Value} (hi : (drawsFor key drawn)[i]? = some draw) :
    draw.2 = .int (Generator.nth i) := by
  rcases h.counted (counts_zero entropy key) with hnumbers | ⟨_, ⟨first, hfirst, hnone⟩, _⟩
  · rw [hnumbers i draw hi, Nat.zero_add]
  · obtain ⟨hmem, hkey⟩ := List.mem_filter.mp (List.mem_of_getElem? hfirst)
    have hsome := hinteger first hmem (of_decide_eq_true hkey)
    rw [hnone] at hsome
    cases hsome

theorem Drawn.exists_int {entropy : Entropy} (h : Drawn { entropy := entropy } drawn source')
    (hinteger : ∀ draw ∈ drawn, draw.1.key = key → draw.1.type.unwrap.generatedBits?.isSome)
    {draw : Property × Value} (hmem : draw ∈ drawn) (hkey : draw.1.key = key) :
    ∃ a, draw.2 = .int a := by
  have hfor : draw ∈ drawsFor key drawn := List.mem_filter.mpr ⟨hmem, by simpa using hkey⟩
  obtain ⟨i, hi⟩ := List.mem_iff_getElem?.mp hfor
  exact ⟨_, h.numbers hinteger hi⟩

/-! ## How numbers compare -/

/-- One draw comes before another, and if both are numbers for one key then it is smaller. -/
def Below (first later : Property × Value) : Prop :=
  first.1.key = later.1.key → ∀ a b, first.2 = .int a → later.2 = .int b → a < b

section Fresh

variable {entropy : Entropy}

/-- **The numbers for one key are strictly increasing**, before they come to the largest one. -/
theorem Drawn.pairwise_below (h : Drawn { entropy := entropy } drawn source')
    (hlength : drawn.length < 2 ^ 63) : drawn.Pairwise Below := by
  have hkey : ∀ key, (drawsFor key drawn).Pairwise Below := by
    intro key
    have hshort : (drawsFor key drawn).length < 2 ^ 63 :=
      Nat.lt_of_le_of_lt (List.length_filter_le _ _) hlength
    refine List.pairwise_iff_getElem.mpr ?_
    intro i j hi hj hij _ a b ha hb
    rcases h.counted (counts_zero entropy key) with hnumbers | ⟨_, _, hnone⟩
    · have hfirst := hnumbers i _ (List.getElem?_eq_getElem hi)
      have hsecond := hnumbers j _ (List.getElem?_eq_getElem hj)
      rw [ha, Nat.zero_add, Generator.nth_eq (by omega)] at hfirst
      rw [hb, Nat.zero_add, Generator.nth_eq (by omega)] at hsecond
      cases hfirst
      cases hsecond
      omega
    · exact absurd ha (hnone _ (List.getElem_mem hi) a)
  -- two draws for one key stand in the same order among the draws for the key
  refine List.pairwise_iff_forall_sublist.mpr ?_
  intro first later hsub hsame
  have hfiltered : [first, later].Sublist (drawsFor later.1.key drawn) := by
    have hboth := hsub.filter fun draw => draw.1.key = later.1.key
    rwa [List.filter_eq_self.mpr (by simp [hsame])] at hboth
  exact List.pairwise_iff_forall_sublist.mp (hkey later.1.key) hfiltered hsame

/-- The numbers are positive as well. -/
theorem Drawn.pos_of_int (h : Drawn { entropy := entropy } drawn source')
    (hlength : drawn.length < 2 ^ 63) {draw : Property × Value} (hmem : draw ∈ drawn) {a : Int}
    (ha : draw.2 = .int a) : 0 < a := by
  have hfor : draw ∈ drawsFor draw.1.key drawn := List.mem_filter.mpr ⟨hmem, by simp⟩
  have hshort : (drawsFor draw.1.key drawn).length ≤ drawn.length := List.length_filter_le _ _
  obtain ⟨i, hi⟩ := List.mem_iff_getElem?.mp hfor
  have hlt := (List.getElem?_eq_some_iff.mp hi).1
  rcases h.counted (counts_zero entropy draw.1.key) with hnumbers | ⟨_, _, hnone⟩
  · have hnumber := hnumbers i draw hi
    rw [ha, Nat.zero_add, Generator.nth_eq (by omega)] at hnumber
    cases hnumber
    omega
  · exact absurd ha (hnone draw hfor a)

end Fresh

/-! ## Filling entries -/

/-- The values that an entry gets are drawn from the source. -/
theorem drawn_fill {adding : Bool} {properties : List Property} :
    ∀ {source : ValueSource} {e : Entry}, Drawn source (source.draws adding e properties)
      (source.fill adding e properties).2.2 := by
  induction properties with
  | nil => exact .nil
  | cons p rest ih =>
    intro source e
    rw [draws, fill]
    split
    · cases hnext : source.next p with
      | error err => exact .nil
      | ok result => exact .cons hnext ih
    · exact ih

/-- **An entry gets what is drawn for it**, in that order and nothing else, whether or not all
values that it needs can be drawn. -/
theorem fill_eq_foldl {adding : Bool} {properties : List Property} :
    ∀ {source : ValueSource} {e : Entry}, (source.fill adding e properties).2.1
      = (source.draws adding e properties).foldl
        (fun e draw => e.setValue draw.1.name draw.2) e := by
  induction properties with
  | nil => exact rfl
  | cons p rest ih =>
    intro source e
    rw [draws, fill]
    split
    · cases source.next p with
      | error err => rfl
      | ok result => exact ih
    · exact ih

/-- The first property gets a value if it needs one, unless there is no generator for it. Then
nothing is drawn for the others either. -/
theorem draws_cons (adding : Bool) (source : ValueSource) (e : Entry) (p : Property)
    (rest : List Property) :
    (e.needsValue adding p ∧ ∃ v source', source.draws adding e (p :: rest)
        = (p, v) :: draws source' adding (e.setValue p.name v) rest)
      ∨ source.draws adding e (p :: rest) = []
      ∨ ¬ e.needsValue adding p
        ∧ source.draws adding e (p :: rest) = source.draws adding e rest := by
  rw [draws]
  by_cases hneeds : e.needsValue adding p = true
  · rw [if_pos hneeds]
    cases source.next p with
    | error err => exact .inr (.inl rfl)
    | ok result => exact .inl ⟨hneeds, result.1, result.2, rfl⟩
  · exact .inr (.inr ⟨hneeds, if_neg hneeds⟩)

/-- Values are drawn for the properties of an entry. -/
theorem mem_of_mem_draws {adding : Bool} {properties : List Property} {draw : Property × Value} :
    ∀ {source : ValueSource} {e : Entry}, draw ∈ source.draws adding e properties →
      draw.1 ∈ properties := by
  induction properties with
  | nil => exact nofun
  | cons p rest ih =>
    intro source e h
    rcases draws_cons adding source e p rest with ⟨_, v, source', hdraws⟩ | hnone | ⟨_, hsame⟩
    · rw [hdraws] at h
      rcases List.mem_cons.mp h with rfl | h
      · exact List.mem_cons_self
      · exact List.mem_cons_of_mem _ (ih h)
    · rw [hnone] at h
      cases h
    · rw [hsame] at h
      exact List.mem_cons_of_mem _ (ih h)

/-! ## Calls in sequence -/

/-- A call by which an entry gets the values that it needs. -/
structure Call where
  adding : Bool
  entry : Entry
  properties : List Property

/-- All draws of calls, one after the other; what a call that fails has drawn is among them. -/
def drawnIn (source : ValueSource) : List Call → List (Property × Value)
  | [] => []
  | ⟨adding, e, properties⟩ :: rest =>
    source.draws adding e properties ++ (source.fill adding e properties).2.2.drawnIn rest

theorem drawn_drawnIn (calls : List Call) :
    ∀ source : ValueSource, ∃ source', Drawn source (source.drawnIn calls) source' := by
  induction calls with
  | nil => exact fun source => ⟨source, .nil⟩
  | cons call rest ih =>
    intro source
    obtain ⟨source', hrest⟩ := ih (source.fill call.adding call.entry call.properties).2.2
    exact ⟨source', drawn_fill.append hrest⟩

theorem exists_call_of_mem_drawnIn {calls : List Call} {draw : Property × Value} :
    ∀ {source : ValueSource}, draw ∈ source.drawnIn calls →
      ∃ call ∈ calls, draw.1 ∈ call.properties := by
  induction calls with
  | nil => exact nofun
  | cons call rest ih =>
    intro source h
    rcases List.mem_append.mp h with h | h
    · exact ⟨call, List.mem_cons_self, mem_of_mem_draws h⟩
    · obtain ⟨call', hcall', hmem⟩ := ih h
      exact ⟨call', List.mem_cons_of_mem _ hcall', hmem⟩

/-- **Values of integer properties are numbers in sequence.** -/
theorem getElem?_drawsFor_drawnIn {entropy : Entropy} {calls : List Call}
    (hinteger : ∀ call ∈ calls, ∀ p ∈ call.properties, p.key = key →
      p.type.unwrap.generatedBits?.isSome) {i : Nat} {draw : Property × Value}
    (h : (drawsFor key (drawnIn { entropy := entropy } calls))[i]? = some draw) :
    draw.2 = .int (Generator.nth i) ∧ draw.1.type.unwrap.generatedBits?.isSome := by
  have htype : ∀ draw ∈ drawnIn { entropy := entropy } calls, draw.1.key = key →
      draw.1.type.unwrap.generatedBits?.isSome := by
    intro draw hdraw hkey
    obtain ⟨call, hcall, hp⟩ := exists_call_of_mem_drawnIn hdraw
    exact hinteger call hcall _ hp hkey
  obtain ⟨source', hdrawn⟩ := drawn_drawnIn calls { entropy := entropy }
  obtain ⟨hmem, hkey⟩ := List.mem_filter.mp (List.mem_of_getElem? h)
  exact ⟨hdrawn.numbers htype h, htype draw hmem (of_decide_eq_true hkey)⟩

/-! ## Calls again and again -/

/-- A number can always be drawn. -/
theorem exists_next (source : ValueSource) (htype : p.type.unwrap.generatedBits?.isSome) :
    ∃ v source', source.next p = .ok (v, source') := by
  -- whole numbers are generated from one on
  have hmade : ∀ entropy, Generator.ofType? p.type.unwrap entropy
      = some (Generator.ofOne, entropy) := by
    intro entropy
    unfold HostType.generatedBits? at htype
    split at htype
    iterate 3
      rename_i heq
      rw [heq]
      rfl
    · cases htype
  rw [next, generator?]
  cases source.generators.lookup (p.declaringType, p.name) with
  | some g => exact ⟨_, _, rfl⟩
  | none =>
    rw [hmade]
    exact ⟨_, _, rfl⟩

section Again

variable {adding : Bool} {e : Entry}

/-- Each call for an integer property that is generated on every write draws one value. -/
theorem drawnIn_replicate (hp : p.generation = .onAddOrUpdate)
    (htype : p.type.unwrap.generatedBits?.isSome) (n : Nat) :
    ∀ source : ValueSource, ∃ values : List Value, values.length = n
      ∧ source.drawnIn (List.replicate n ⟨adding, e, [p]⟩) = values.map (p, ·) := by
  induction n with
  | zero => exact fun _ => ⟨[], rfl, rfl⟩
  | succ n ih =>
    intro source
    obtain ⟨v, mid, hnext⟩ := source.exists_next htype
    obtain ⟨values, hlength, hvalues⟩ := ih mid
    have hneeds : e.needsValue adding p := by rw [Entry.needsValue, hp]
    refine ⟨v :: values, by rw [List.length_cons, hlength], ?_⟩
    rw [List.replicate_succ, drawnIn, draws, fill, if_pos hneeds, if_pos hneeds, hnext]
    exact congrArg ((p, v) :: ·) hvalues

/-- So any number is drawn in the end, whether or not it fits. -/
theorem mem_drawnIn_replicate {entropy : Entropy} (hp : p.generation = .onAddOrUpdate)
    (htype : p.type.unwrap.generatedBits?.isSome) (n : Nat) :
    (p, .int (Generator.nth n))
      ∈ drawnIn { entropy := entropy } (List.replicate (n + 1) ⟨adding, e, [p]⟩) := by
  obtain ⟨values, hlength, hvalues⟩ : ∃ values : List Value, values.length = n + 1
      ∧ drawnIn { entropy := entropy } (List.replicate (n + 1) ⟨adding, e, [p]⟩)
        = values.map (p, ·) := drawnIn_replicate hp htype (n + 1) _
  -- all draws are for the one key
  have hall : drawsFor p.key (values.map (p, ·)) = values.map (p, ·) :=
    List.filter_eq_self.mpr (by simp)
  have hget : (drawsFor p.key (values.map (p, ·)))[n]? = some (p, values[n]) := by
    rw [hall, List.getElem?_map, List.getElem?_eq_getElem]
    rfl
  rw [← hvalues] at hget
  -- the draw at position `n` gives number `n`
  have hnumber := (getElem?_drawsFor_drawnIn (by
    intro call hcall q hq _
    rw [List.eq_of_mem_replicate hcall, List.mem_singleton] at hq
    rwa [hq]) hget).1
  have hmem := (List.mem_filter.mp (List.mem_of_getElem? hget)).1
  rwa [show values[n] = _ from hnumber] at hmem

end Again

end ValueSource

open ValueSource

/-- **What fits when.** If a declaring type and a name stand for integer properties only, then the
values that any calls generate for them are the numbers from one on, turned over at 64 bits. All of
them fit properties of 64 bits. The others fit properties of fewer bits until they come to the
largest number of the type. -/
theorem generated_values_fit {entropy : Entropy} {calls : List Call} {key : PropertyKey}
    (hinteger : ∀ call ∈ calls, ∀ p ∈ call.properties, p.key = key →
      p.type.unwrap.generatedBits?.isSome) :
    ∀ (i : Nat) (p : Property) (v : Value),
      (drawsFor key (drawnIn { entropy := entropy } calls))[i]? = some (p, v) →
      v = .int (Generator.nth i) ∧ (i < 2 ^ 63 - 1 → Generator.nth i = i + 1)
        ∧ ∃ bits, p.type.unwrap.generatedBits? = some bits
          ∧ (bits = 64 ∨ i + 1 < 2 ^ (bits - 1) → Fits bits (Generator.nth i)) := by
  intro i p v h
  obtain ⟨hv, htype⟩ := getElem?_drawsFor_drawnIn hinteger h
  obtain ⟨bits, hbits⟩ := Option.isSome_iff_exists.mp htype
  exact ⟨hv, Generator.nth_eq, bits, hbits, fits_nth (HostType.generatedBits?_le hbits)⟩

/-! ## Meters -/

/-- The level of a meter, which is read whenever the meter is written. -/
def meterLevel : Property :=
  ⟨"Level", "Meter", .int16, none, false, false, some .onAddOrUpdate⟩

/-- A meter that is written. -/
def meterEntry : Entry where
  id := 0
  entityType := { name := "Meter", properties := [meterLevel] }
  state := .modified
  current := []
  baseline := []
  owner := none

/-- A reading of the meter. -/
def reading : Call := ⟨false, meterEntry, [meterLevel]⟩

theorem generated_values_fit_readings :
    (∀ call ∈ [reading, reading], ∀ p ∈ call.properties, p.key = ("Meter", "Level") →
        p.type.unwrap.generatedBits?.isSome)
      ∧ drawsFor ("Meter", "Level") (drawnIn {} [reading, reading])
        = [(meterLevel, .int 1), (meterLevel, .int 2)]
      ∧ Fits 16 (Generator.nth 1) := by
  have hinteger : ∀ call ∈ [reading, reading], ∀ p ∈ call.properties,
      p.key = ("Meter", "Level") → p.type.unwrap.generatedBits?.isSome := by decide
  have hdrawn : drawsFor ("Meter", "Level") (drawnIn {} [reading, reading])
      = [(meterLevel, .int 1), (meterLevel, .int 2)] := by decide
  obtain ⟨_, _, bits, hbits, hfits⟩ := generated_values_fit hinteger 1 meterLevel (.int 2)
    (by rw [hdrawn]; rfl)
  cases hbits
  exact ⟨hinteger, hdrawn, hfits (.inr (by decide))⟩

/-- **Generated values need not fit**: the level comes to a number that it cannot hold. -/
theorem reading_overflows :
    (meterLevel, .int 32768) ∈ drawnIn {} (List.replicate 32768 reading)
      ∧ meterLevel.type = .int16 ∧ ¬ Fits 16 32768 := by
  have hmem : (meterLevel, .int (Generator.nth 32767))
      ∈ drawnIn {} (List.replicate (32767 + 1) reading) := mem_drawnIn_replicate rfl rfl 32767
  rw [Generator.nth_eq (by decide)] at hmem
  exact ⟨hmem, rfl, by decide⟩

end Odm
