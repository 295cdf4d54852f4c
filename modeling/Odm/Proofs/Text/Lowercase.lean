import Odm.Text.Lowercase

/-!
# Numbers behind a text

A number that is put behind a text is not changed when the text is lowered, and does not change
how the rest is lowered: digits have no case, and for a sigma in front of them the word ends there
as it would without them. So one text with different numbers behind it has different lower-case
forms, none of which is that of the text alone.
-/

namespace Odm

/-- Digits only. -/
def Digits (ds : List Char) : Prop := ∀ d ∈ ds, d.isDigit

theorem toNat_of_isDigit {c : Char} (h : c.isDigit) :
    '0'.toNat ≤ c.toNat ∧ c.toNat ≤ '9'.toNat := by
  simp only [Char.isDigit, Bool.and_eq_true, decide_eq_true_eq] at h
  exact ⟨UInt32.le_iff_toNat_le.mp h.1, UInt32.le_iff_toNat_le.mp h.2⟩

/-! ## What digits are -/

theorem not_inRanges_of_isDigit {ranges : List (Nat × Nat)}
    (h : ∀ r ∈ ranges, r.2 < '0'.toNat ∨ '9'.toNat < r.1) {c : Char} (hc : c.isDigit) :
    inRanges ranges c = false := by
  obtain ⟨hzero, hnine⟩ := toNat_of_isDigit hc
  rw [inRanges, List.any_eq_false]
  intro r hr
  simp only [Bool.and_eq_true, decide_eq_true_eq, not_and]
  rcases h r hr with hr | hr
  · omega
  · omega

theorem not_isCaseIgnorable_of_isDigit {c : Char} (hc : c.isDigit) : isCaseIgnorable c = false :=
  not_inRanges_of_isDigit (by decide +kernel) hc

theorem not_isCased_of_isDigit {c : Char} (hc : c.isDigit) : isCased c = false :=
  not_inRanges_of_isDigit (by decide +kernel) hc

theorem ne_of_isDigit {c other : Char} (hc : c.isDigit) (hother : '9'.toNat < other.toNat) :
    c ≠ other := by
  rintro rfl
  have hnine := (toNat_of_isDigit hc).2
  omega

theorem lowercaseChar_of_isDigit {c : Char} (hc : c.isDigit) : lowercaseChar c = [c] := by
  have hruns : ∀ run ∈ lowercaseRuns, '9'.toNat < run.first := by decide +kernel
  have hnone : lowercaseRuns.find? (·.covers c.toNat) = none := by
    rw [List.find?_eq_none]
    intro run hrun
    have hfirst := hruns run hrun
    have hnine := (toNat_of_isDigit hc).2
    simp only [LowercaseRun.covers, Bool.and_eq_true, decide_eq_true_eq, not_and]
    omega
  rw [lowercaseChar, if_neg (ne_of_isDigit hc (by decide)), hnone]

/-! ## Digits behind characters -/

/-- Digits do not make a sigma in front of them end a word or go on with it. -/
theorem meetsCased_append {cs ds : List Char} (h : Digits ds) :
    meetsCased (cs ++ ds) = meetsCased cs := by
  induction cs with
  | nil =>
    cases ds with
    | nil => rfl
    | cons d rest =>
      have hd := h d List.mem_cons_self
      rw [List.nil_append, meetsCased, List.dropWhile_cons, not_isCaseIgnorable_of_isDigit hd]
      exact not_isCased_of_isDigit hd
  | cons c rest ih =>
    rw [List.cons_append, meetsCased, meetsCased, List.dropWhile_cons, List.dropWhile_cons]
    split
    · exact ih
    · rfl

theorem lowercaseAfter_digits {ds : List Char} (h : Digits ds) :
    ∀ before, lowercaseAfter before ds = ds := by
  induction ds with
  | nil => exact fun _ => rfl
  | cons d rest ih =>
    intro before
    obtain ⟨hd, hrest⟩ := List.forall_mem_cons.mp h
    rw [lowercaseAfter, if_neg (ne_of_isDigit hd (by decide)), lowercaseChar_of_isDigit hd,
      ih hrest, List.singleton_append]

theorem lowercaseAfter_append {cs ds : List Char} (h : Digits ds) :
    ∀ before, lowercaseAfter before (cs ++ ds) = lowercaseAfter before cs ++ ds := by
  induction cs with
  | nil => exact lowercaseAfter_digits h
  | cons c rest ih =>
    intro before
    rw [List.cons_append, lowercaseAfter, lowercaseAfter, ih, List.append_assoc, lowercaseSigma,
      meetsCased_append h, ← lowercaseSigma]

/-! ## Numbers behind texts -/

theorem toList_toString (n : Nat) : (toString n).toList = Nat.toDigits 10 n := Nat.toList_repr

theorem digits_toString (n : Nat) : Digits (toString n).toList := by
  intro d hd
  rw [toList_toString] at hd
  exact Nat.isDigit_of_mem_toDigits (by decide) (by decide) hd

theorem toString_nat_injective {m n : Nat} (h : toString m = toString n) : m = n := by
  have hdigits : Nat.toDigits 10 m = Nat.toDigits 10 n := by
    rw [← toList_toString, h, toList_toString]
  calc m = Nat.ofDigitChars 10 (Nat.toDigits 10 m) 0 := Nat.ofDigitChars_ten_toDigits.symm
    _ = Nat.ofDigitChars 10 (Nat.toDigits 10 n) 0 := by rw [hdigits]
    _ = n := Nat.ofDigitChars_ten_toDigits

/-- **A number behind a text stays as it is.** -/
theorem lowercase_append_toString (s : String) (n : Nat) :
    lowercase (s ++ toString n) = lowercase s ++ toString n := by
  rw [lowercase, String.toList_append, lowercaseAfter_append (digits_toString n), lowercase,
    String.ofList_append, String.ofList_toList]

/-- **Different numbers behind a text give different lower-case forms.** -/
theorem lowercase_append_injective {s : String} {m n : Nat}
    (h : lowercase (s ++ toString m) = lowercase (s ++ toString n)) : m = n := by
  rw [lowercase_append_toString, lowercase_append_toString] at h
  exact toString_nat_injective ((String.append_right_inj _).mp h)

/-- A number behind a text makes another lower-case form. -/
theorem lowercase_append_ne (s : String) (n : Nat) :
    lowercase (s ++ toString n) ≠ lowercase s := by
  intro h
  have hlength := congrArg String.length h
  rw [lowercase_append_toString, String.length_append, ← String.length_toList (s := toString n),
    toList_toString] at hlength
  have hpos := List.length_pos_iff.mpr (Nat.toDigits_ne_nil (n := n) (b := 10))
  omega

end Odm
