import Mathlib.Algebra.Group.Nat.Defs
import Odm.Proofs.Table
import Odm.Update.ValueSource

/-!
# Generated values are set

Every generator makes values that count as set, with two reservations. A sequence goes through all
64-bit numbers, so it comes to zero in the end. And an object id is told from one of zeros by the
clock, which must not be at a multiple of `2 ^ 32` seconds when it is read.

A source is *ready* for a number of draws when neither can happen during them. Filling an entry
draws at most once for each property. Afterwards whatever was to be generated is set, because it was
drawn or because it was set before, and values that are set stay so.
-/

namespace Odm

/-! ## Ids -/

theorem eq_zero_of_digitChar : ∀ d < 16, Nat.digitChar d = '0' ∨ Nat.digitChar d = '-' → d = 0 := by
  decide

/-- A number whose last digits are all zero. -/
theorem mod_eq_zero_of_hexDigits {width n : Nat}
    (h : ∀ c ∈ hexDigits width n, c = '0' ∨ c = '-') : n % 16 ^ width = 0 := by
  induction width generalizing n with
  | zero => exact Nat.mod_one n
  | succ width ih =>
    rw [hexDigits] at h
    -- the last digit is that of the remainder, the others are those of the quotient
    have hlast := h _ (List.mem_append_right _ List.mem_cons_self)
    have hlow := eq_zero_of_digitChar (n % 16) (Nat.mod_lt _ (by decide)) hlast
    have hhigh := ih fun c hc => h c (List.mem_append_left _ hc)
    rw [Nat.pow_succ, Nat.mul_comm, Nat.mod_mul, hlow, hhigh]

theorem isUnset_str_iff {text : String} :
    (Value.str text).isUnset ↔ ∀ c ∈ text.toList, c = '0' ∨ c = '-' := by
  simp [Value.isUnset]

/-- An object id counts as set because of its time. -/
theorem isUnset_objectIdText {seconds : Nat} (h : seconds % 16 ^ 8 ≠ 0) (tag counter : Nat) :
    (Value.str (objectIdText seconds tag counter)).isUnset = false := by
  rw [Bool.eq_false_iff, ne_eq, isUnset_str_iff]
  intro hall
  refine h (mod_eq_zero_of_hexDigits fun c hc => hall c ?_)
  simp [objectIdText, hex, hc]

/-- A guid counts as set because of its version. -/
theorem isUnset_guidText (high low : UInt64) :
    (Value.str (guidText (.ofWords high low))).isUnset = false := by
  rw [Bool.eq_false_iff, ne_eq, isUnset_str_iff]
  intro hall
  have hversion : Nat.digitChar ((Uuid.ofWords high low).high / 0x1000 % 16) = '4' := by
    rw [Uuid.version_ofWords]
    rfl
  -- the version is the first digit of the third group
  have hgroup : '4' ∈ (hex 4 (Uuid.ofWords high low).high).toList := by
    simp [hex, hexDigits, Nat.div_div_eq_div_mul, hversion]
  have htext : '4' ∈ (guidText (.ofWords high low)).toList := by simp [guidText, hgroup]
  exact absurd (hall '4' htext) (by decide)

/-! ## The clock -/

namespace Entropy

variable {entropy : Entropy} {k k' : Nat}

/-- The next `k` times that the clock is read, it is not at a multiple of `2 ^ 32` seconds. -/
def TellsTime (k : Nat) (entropy : Entropy) : Prop :=
  ∀ i < k, entropy.clock.item (entropy.clock.taken + i) % 16 ^ 8 ≠ 0

theorem TellsTime.mono (hk : k ≤ k') (h : entropy.TellsTime k') : entropy.TellsTime k :=
  fun i hi => h i (Nat.lt_of_lt_of_le hi hk)

theorem TellsTime.now (h : entropy.TellsTime (k + 1)) :
    entropy.now.1 % 16 ^ 8 ≠ 0 ∧ entropy.now.2.TellsTime k := by
  refine ⟨h 0 (Nat.succ_pos k), fun i hi => ?_⟩
  have hlater := h (i + 1) (Nat.succ_lt_succ hi)
  rwa [← Nat.add_assoc, Nat.add_right_comm] at hlater

theorem TellsTime.uuid (h : entropy.TellsTime k) : entropy.uuid.2.TellsTime k := h

end Entropy

namespace Generator

/-- The generator does not come to zero in the next `k` draws. -/
def LastsFor (k : Nat) : Generator → Prop
  | .sequence n => ∀ i < k, n + Int64.ofNat i ≠ 0
  | .objectId _ _ | .guid => True

theorem LastsFor.mono {k k' : Nat} (hk : k ≤ k') {g : Generator} (h : g.LastsFor k') :
    g.LastsFor k := by
  cases g with
  | sequence n => exact fun i hi => h i (Nat.lt_of_lt_of_le hi hk)
  | objectId => trivial
  | guid => trivial

/-- A new sequence goes through almost all 64-bit numbers. -/
theorem lastsFor_ofOne {k : Nat} (h : k < 2 ^ 64) : ofOne.LastsFor k := by
  intro i hi hzero
  have hword : Int64.ofNat (1 + i) = 0 := (Int64.ofNat_add 1 i).trans hzero
  have hbits : (BitVec.ofNat 64 (1 + i)).toNat = 0 := congrArg (fun n => n.toBitVec.toNat) hword
  rw [BitVec.toNat_ofNat, Nat.mod_eq_of_lt (by omega)] at hbits
  omega

/-- **A draw gives a value that is set**, and leaves a generator that lasts for the draws left. -/
theorem LastsFor.next {k : Nat} {g : Generator} (h : g.LastsFor (k + 1)) {entropy : Entropy}
    (hclock : entropy.TellsTime (k + 1)) :
    (g.next entropy).1.isUnset = false ∧ (g.next entropy).2.1.LastsFor k
      ∧ (g.next entropy).2.2.TellsTime k := by
  cases g with
  | objectId tag counter =>
    obtain ⟨hseconds, hlater⟩ := hclock.now
    exact ⟨isUnset_objectIdText hseconds tag counter, trivial, hlater⟩
  | guid => exact ⟨isUnset_guidText _ _, trivial, hclock.uuid.mono (Nat.le_succ k)⟩
  | sequence n =>
    refine ⟨?_, ?_, hclock.mono (Nat.le_succ k)⟩
    · have hne := h 0 (Nat.succ_pos k)
      -- the next number is not zero, and the numbers after it are those left
      rw [show Int64.ofNat 0 = 0 from rfl, Int64.add_zero] at hne
      refine decide_eq_false fun hzero => hne ?_
      exact Int64.toInt_inj.mp hzero
    · intro i hi
      have hne := h (i + 1) (Nat.succ_lt_succ hi)
      rwa [Int64.ofNat_add, Int64.add_comm (Int64.ofNat i), ← Int64.add_assoc] at hne

theorem lastsFor_ofType? {k : Nat} (hk : k < 2 ^ 64) {type : HostType} {entropy entropy' : Entropy}
    {g : Generator} (hclock : entropy.TellsTime k) (h : ofType? type entropy = some (g, entropy')) :
    g.LastsFor k ∧ entropy'.TellsTime k := by
  unfold ofType? at h
  split at h
  · cases h
    exact ⟨trivial, hclock.uuid⟩
  · cases h
    exact ⟨trivial, hclock⟩
  iterate 3
    cases h
    exact ⟨lastsFor_ofOne hk, hclock⟩
  · cases h

end Generator

/-! ## Sources -/

namespace ValueSource

/-- The source gives values that are set in the next `k` draws: its clock is not at a multiple of
`2 ^ 32` seconds then, and none of its sequences comes to zero. -/
structure Ready (source : ValueSource) (k : Nat) : Prop where
  clock : source.entropy.TellsTime k
  room : k < 2 ^ 64
  lasts : ∀ known ∈ source.generators, known.2.LastsFor k

variable {source source' : ValueSource} {k k' : Nat}

theorem Ready.mono (hk : k ≤ k') (h : source.Ready k') : source.Ready k where
  clock := h.clock.mono hk
  room := Nat.lt_of_le_of_lt hk h.room
  lasts known hknown := (h.lasts known hknown).mono hk

/-- The generator of a property, whether it is there or is made now. -/
theorem Ready.generator? (h : source.Ready k) {p : Property} {g : Generator} {entropy : Entropy}
    (hg : source.generator? p = some (g, entropy)) :
    g.LastsFor k ∧ entropy.TellsTime k := by
  unfold ValueSource.generator? at hg
  split at hg
  · rename_i known hknown
    cases hg
    obtain ⟨_, _, hgenerators, _⟩ := List.lookup_eq_some_iff.mp hknown
    refine ⟨h.lasts ((p.declaringType, p.name), g) ?_, h.clock⟩
    rw [hgenerators]
    exact List.mem_append_right _ List.mem_cons_self
  · exact Generator.lastsFor_ofType? h.room h.clock hg

/-- **A ready source draws a value that is set**, and is ready for the draws left. -/
theorem Ready.next (h : source.Ready (k + 1)) {p : Property} {v : Value}
    (hnext : source.next p = .ok (v, source')) : v.isUnset = false ∧ source'.Ready k := by
  unfold ValueSource.next at hnext
  split at hnext
  · cases hnext
  rename_i g entropy hg
  obtain ⟨hlasts, htime⟩ := h.generator? hg
  obtain ⟨hset, hlater, hclock⟩ := hlasts.next htime
  cases hdraw : g.next entropy with
  | mk drawn later =>
    obtain ⟨g', entropy'⟩ := later
    simp only [hdraw, Except.ok.injEq, Prod.mk.injEq] at hnext hset hlater hclock
    obtain ⟨rfl, rfl⟩ := hnext
    refine ⟨hset, hclock, Nat.lt_of_succ_lt h.room, ?_⟩
    intro known hknown
    -- the generator that was used lasts for the rest, and the others were not used
    rcases List.mem_cons.mp hknown with rfl | hknown
    · exact hlater
    · exact (h.lasts known (List.mem_filter.mp hknown).1).mono (Nat.le_succ k)

end ValueSource

/-! ## Entries -/

namespace Entry

variable {e e' : Entry} {name : String}

/-- The entry has a value for the property that counts as set. -/
def IsSet (e : Entry) (name : String) : Prop :=
  ∃ v, e.current.get? name = some v ∧ v.isUnset = false

theorem isSet_setValue {v : Value} (hv : v.isUnset = false) (e : Entry) (name : String) :
    (e.setValue name v).IsSet name :=
  ⟨v, Table.get?_insert_self _ _ _, hv⟩

theorem IsSet.setValue (h : e.IsSet name) (other : String) {v : Value} (hv : v.isUnset = false) :
    (e.setValue other v).IsSet name := by
  by_cases hname : name = other
  · subst hname
    exact isSet_setValue hv e name
  · obtain ⟨w, hw, hset⟩ := h
    exact ⟨w, (Table.get?_insert_ne _ hname _).trans hw, hset⟩

end Entry

/-- Values of the property are generated when an entry is written, and also when that is added. -/
def Property.IsGenerated (p : Property) (adding : Bool) : Prop :=
  p.generation = .onAddOrUpdate ∨ p.generation = .onAdd ∧ adding

/-- What is generated and gets no value now has one already. -/
theorem Entry.isSet_of_not_needsValue {e : Entry} {adding : Bool} {p : Property}
    (hp : p.IsGenerated adding) (h : ¬ e.needsValue adding p) : e.IsSet p.name := by
  rcases hp with hp | ⟨hp, rfl⟩
  · rw [needsValue, hp] at h
    exact absurd rfl h
  · rw [needsValue, hp, Bool.true_and] at h
    cases hcurrent : e.current.get? p.name with
    | none => rw [hcurrent] at h; exact absurd rfl h
    | some v =>
      rw [hcurrent] at h
      exact ⟨v, hcurrent, Bool.eq_false_iff.mpr h⟩

/-- **Filling an entry sets what is generated.** A source that is ready for a draw for each property
is ready for the draws left, and values that are set stay so. -/
theorem ValueSource.Ready.fill {adding : Bool} {k : Nat} {properties : List Property} :
    ∀ {source source' : ValueSource} {e e' : Entry}, source.Ready (properties.length + k) →
      source.fill adding e properties = (.ok (), e', source') →
      source'.Ready k ∧ (∀ name, e.IsSet name → e'.IsSet name)
        ∧ ∀ p ∈ properties, p.IsGenerated adding → e'.IsSet p.name := by
  induction properties with
  | nil =>
    intro source source' e e' hready h
    cases h
    exact ⟨hready.mono (Nat.le_add_left _ _), fun _ => id, nofun⟩
  | cons p rest ih =>
    intro source source' e e' hready h
    rw [List.length_cons, Nat.add_right_comm] at hready
    rw [ValueSource.fill] at h
    split at h
    · cases hnext : source.next p with
      | error err =>
        rw [hnext] at h
        cases h
      | ok result =>
        obtain ⟨v, source₁⟩ := result
        rw [hnext] at h
        obtain ⟨hv, hlater⟩ := hready.next hnext
        obtain ⟨hready', hkeeps, hrest⟩ := ih hlater h
        refine ⟨hready', fun name hname => hkeeps name (hname.setValue p.name hv), ?_⟩
        intro q hq hgenerated
        rcases List.mem_cons.mp hq with rfl | hq
        · -- the value may be drawn anew for a later property of the name, and is set still
          exact hkeeps _ (Entry.isSet_setValue hv e _)
        · exact hrest q hq hgenerated
    · -- nothing is drawn, so there is a draw more than needed for the rest
      rename_i hneeds
      obtain ⟨hready', hkeeps, hrest⟩ := ih (hready.mono (Nat.le_succ _)) h
      refine ⟨hready', hkeeps, ?_⟩
      intro q hq hgenerated
      rcases List.mem_cons.mp hq with rfl | hq
      · exact hkeeps _ (Entry.isSet_of_not_needsValue hgenerated hneeds)
      · exact hrest q hq hgenerated

end Odm
