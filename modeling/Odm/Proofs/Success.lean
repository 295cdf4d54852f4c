/-!
# Results of several steps

A computation that may fail succeeds when each of its steps does, and fails with the first step
that does not. These lemmas take the result of a sequence apart into the results of its steps.
-/

namespace Except

variable {ε ε' α β : Type}

theorem bind_eq_ok_iff {x : Except ε α} {f : α → Except ε β} {b : β} :
    x >>= f = .ok b ↔ ∃ a, x = .ok a ∧ f a = .ok b := by
  cases x <;> simp [bind, Except.bind]

theorem bind_eq_error_iff {x : Except ε α} {f : α → Except ε β} {e : ε} :
    x >>= f = .error e ↔ x = .error e ∨ ∃ a, x = .ok a ∧ f a = .error e := by
  cases x <;> simp [bind, Except.bind]

theorem map_eq_ok_iff {x : Except ε α} {f : α → β} {b : β} :
    x.map f = .ok b ↔ ∃ a, x = .ok a ∧ f a = b := by
  cases x <;> simp [Except.map]

theorem mapError_ok (f : ε → ε') (a : α) : (Except.ok a : Except ε α).mapError f = .ok a := rfl

theorem mapError_eq_ok_iff {x : Except ε α} {f : ε → ε'} {a : α} :
    x.mapError f = .ok a ↔ x = .ok a := by
  cases x with
  | error e => exact ⟨nofun, nofun⟩
  | ok b =>
    constructor
    · intro h
      cases h
      rfl
    · intro h
      cases h
      rfl

theorem pure_eq_ok_iff {a b : α} : (pure a : Except ε α) = .ok b ↔ a = b := by
  simp [pure, Except.pure]

theorem forM_eq_ok_iff {xs : List α} {f : α → Except ε Unit} :
    xs.forM f = .ok () ↔ ∀ x ∈ xs, f x = .ok () := by
  induction xs with
  | nil => exact ⟨fun _ => nofun, fun _ => rfl⟩
  | cons x rest ih =>
    rw [List.forM, bind_eq_ok_iff, List.forall_mem_cons, ← ih]
    exact ⟨fun ⟨_, hx, hrest⟩ => ⟨hx, hrest⟩, fun ⟨hx, hrest⟩ => ⟨(), hx, hrest⟩⟩

/-- A sequence of checks fails with the error of the first one that fails. -/
theorem forM_eq_error_iff {xs : List α} {f : α → Except ε Unit} {e : ε} :
    xs.forM f = .error e ↔ ∃ earlier x later, xs = earlier ++ x :: later
      ∧ (∀ y ∈ earlier, f y = .ok ()) ∧ f x = .error e := by
  constructor
  · intro h
    induction xs with
    | nil => cases h
    | cons x rest ih =>
      rw [List.forM] at h
      -- either the first check fails, or the failure is further on
      rcases bind_eq_error_iff.mp h with hx | ⟨_, hx, hrest⟩
      · exact ⟨[], x, rest, rfl, nofun, hx⟩
      · obtain ⟨earlier, y, later, rfl, hearlier, hy⟩ := ih hrest
        exact ⟨x :: earlier, y, later, rfl, List.forall_mem_cons.mpr ⟨hx, hearlier⟩, hy⟩
  · rintro ⟨earlier, x, later, rfl, hearlier, hx⟩
    induction earlier with
    | nil => exact bind_eq_error_iff.mpr (.inl hx)
    | cons y rest ih =>
      obtain ⟨hy, hrest⟩ := List.forall_mem_cons.mp hearlier
      exact bind_eq_error_iff.mpr (.inr ⟨(), hy, ih hrest⟩)

/-- What every step keeps, the whole sequence keeps. -/
theorem foldlM_keeps {step : β → α → Except ε β} {P : β → Prop} {xs : List α}
    (hstep : ∀ b x b', x ∈ xs → P b → step b x = .ok b' → P b') {b b' : β}
    (h : xs.foldlM step b = .ok b') (hb : P b) : P b' := by
  induction xs generalizing b with
  | nil =>
    cases pure_eq_ok_iff.mp h
    exact hb
  | cons x rest ih =>
    rw [List.foldlM_cons] at h
    obtain ⟨b₁, hx, hrest⟩ := bind_eq_ok_iff.mp h
    refine ih (fun b y b' hy => hstep b y b' (List.mem_cons_of_mem _ hy)) hrest ?_
    exact hstep b x b₁ List.mem_cons_self hb hx

/-- What every step makes of the elements so far, the whole sequence makes of all of them. -/
theorem foldlM_prefix {step : β → α → Except ε β} {P : List α → β → Prop}
    (hstep : ∀ earlier b x b', P earlier b → step b x = .ok b' → P (earlier ++ [x]) b')
    {later : List α} : ∀ {earlier : List α} {b b' : β}, P earlier b →
      later.foldlM step b = .ok b' → P (earlier ++ later) b' := by
  induction later with
  | nil =>
    intro earlier b b' hb h
    cases pure_eq_ok_iff.mp h
    rwa [List.append_nil]
  | cons x rest ih =>
    intro earlier b b' hb h
    rw [List.foldlM_cons] at h
    obtain ⟨b₁, hx, hrest⟩ := bind_eq_ok_iff.mp h
    have hall := ih (hstep earlier b x b₁ hb hx) hrest
    rwa [List.append_assoc] at hall

/-- A sequence of steps that all succeed. -/
theorem foldlM_eq_ok {step : β → α → Except ε β} {f : β → α → β} {xs : List α}
    (hstep : ∀ x ∈ xs, ∀ b, step b x = .ok (f b x)) {b : β} :
    xs.foldlM step b = .ok (xs.foldl f b) := by
  induction xs generalizing b with
  | nil => rfl
  | cons x rest ih =>
    obtain ⟨hx, hrest⟩ := List.forall_mem_cons.mp hstep
    rw [List.foldlM_cons, hx, List.foldl_cons, ← ih hrest]
    rfl

/-- A sequence of steps that change nothing. -/
theorem foldlM_eq_self {step : β → α → Except ε β} {b : β} {xs : List α}
    (hstep : ∀ x ∈ xs, step b x = .ok b) : xs.foldlM step b = .ok b := by
  induction xs with
  | nil => rfl
  | cons x rest ih =>
    obtain ⟨hx, hrest⟩ := List.forall_mem_cons.mp hstep
    rw [List.foldlM_cons, hx]
    exact ih hrest

/-- Steps that are the images of other steps. -/
theorem foldlM_map {γ : Type} {step : β → α → Except ε β} {step' : γ → α → Except ε γ} {g : γ → β}
    (hstep : ∀ c x, step (g c) x = (step' c x).map g) (xs : List α) :
    ∀ c, xs.foldlM step (g c) = (xs.foldlM step' c).map g := by
  induction xs with
  | nil => exact fun c => rfl
  | cons x rest ih =>
    intro c
    rw [List.foldlM_cons, List.foldlM_cons, hstep]
    cases step' c x with
    | error e => rfl
    | ok c' => exact ih c'

/-- The results of steps that all succeed. -/
theorem mem_iff_of_mapM {f : α → Except ε β} {xs : List α} :
    ∀ {ys : List β}, xs.mapM f = .ok ys → ∀ y, y ∈ ys ↔ ∃ x ∈ xs, f x = .ok y := by
  induction xs with
  | nil =>
    intro ys h y
    cases pure_eq_ok_iff.mp h
    simp
  | cons x rest ih =>
    intro ys h y
    rw [List.mapM_cons] at h
    obtain ⟨first, hfirst, h⟩ := bind_eq_ok_iff.mp h
    obtain ⟨later, hlater, h⟩ := bind_eq_ok_iff.mp h
    cases pure_eq_ok_iff.mp h
    rw [List.mem_cons, ih hlater, eq_comm, ← Except.ok.injEq (ε := ε), ← hfirst]
    simp only [List.mem_cons, exists_eq_or_imp]

/-- A sequence of steps succeeds if all of them do. -/
theorem exists_mapM_eq_ok_iff {xs : List α} {f : α → Except ε β} :
    (∃ ys, xs.mapM f = .ok ys) ↔ ∀ x ∈ xs, ∃ y, f x = .ok y := by
  induction xs with
  | nil => exact iff_of_true ⟨[], rfl⟩ nofun
  | cons x rest ih =>
    rw [List.forall_mem_cons, ← ih, List.mapM_cons]
    constructor
    · rintro ⟨_, h⟩
      obtain ⟨y, hx, h⟩ := bind_eq_ok_iff.mp h
      obtain ⟨ys, hrest, _⟩ := bind_eq_ok_iff.mp h
      exact ⟨⟨y, hx⟩, ys, hrest⟩
    · rintro ⟨⟨y, hx⟩, ys, hrest⟩
      rw [hx, hrest]
      exact ⟨y :: ys, rfl⟩

/-- A sequence of steps fails with the error of the first one that fails. -/
theorem mapM_eq_error_iff {xs : List α} {f : α → Except ε β} {e : ε} :
    xs.mapM f = .error e ↔ ∃ earlier x later, xs = earlier ++ x :: later
      ∧ (∀ y ∈ earlier, ∃ b, f y = .ok b) ∧ f x = .error e := by
  constructor
  · intro h
    induction xs with
    | nil => cases h
    | cons x rest ih =>
      rw [List.mapM_cons] at h
      -- either the first step fails, or it gives something and the failure is further on
      rcases bind_eq_error_iff.mp h with hx | ⟨b, hx, h⟩
      · exact ⟨[], x, rest, rfl, nofun, hx⟩
      · rcases bind_eq_error_iff.mp h with hrest | ⟨_, _, h⟩
        · obtain ⟨earlier, y, later, rfl, hearlier, hy⟩ := ih hrest
          exact ⟨x :: earlier, y, later, rfl, List.forall_mem_cons.mpr ⟨⟨b, hx⟩, hearlier⟩, hy⟩
        · cases h
  · rintro ⟨earlier, x, later, rfl, hearlier, hx⟩
    induction earlier with
    | nil =>
      rw [List.nil_append, List.mapM_cons]
      exact bind_eq_error_iff.mpr (.inl hx)
    | cons y rest ih =>
      obtain ⟨⟨b, hy⟩, hrest⟩ := List.forall_mem_cons.mp hearlier
      rw [List.cons_append, List.mapM_cons]
      exact bind_eq_error_iff.mpr (.inr ⟨b, hy, bind_eq_error_iff.mpr (.inl (ih hrest))⟩)

/-! ## Errors that do not occur -/

/-- The computation does not fail with an error of the kind. -/
def Avoids (x : Except ε α) (bad : ε → Prop) : Prop := ∀ e, x = .error e → ¬ bad e

namespace Avoids

variable {bad : ε → Prop}

theorem ok (a : α) : (Except.ok a : Except ε α).Avoids bad := nofun

theorem error {e : ε} (h : ¬ bad e) : (Except.error e : Except ε α).Avoids bad := by
  intro e' he'
  cases he'
  exact h

theorem bind {x : Except ε α} {f : α → Except ε β} (hx : x.Avoids bad)
    (hf : ∀ a, x = .ok a → (f a).Avoids bad) : (x >>= f).Avoids bad := by
  intro e h
  rcases bind_eq_error_iff.mp h with h | ⟨a, ha, h⟩
  · exact hx e h
  · exact hf a ha e h

theorem map {x : Except ε α} (f : α → β) (hx : x.Avoids bad) : (x.map f).Avoids bad := by
  intro e h
  cases x with
  | error e' => exact hx e (by cases h; rfl)
  | ok a => cases h

theorem mapError {bad' : ε' → Prop} {x : Except ε α} {f : ε → ε'}
    (hx : x.Avoids fun e => bad' (f e)) : (x.mapError f).Avoids bad' := by
  intro e h
  cases x with
  | error e' =>
    cases h
    exact hx e' rfl
  | ok a => cases h

theorem foldlM {step : β → α → Except ε β} {xs : List α}
    (hstep : ∀ b, ∀ x ∈ xs, (step b x).Avoids bad) : ∀ b, (xs.foldlM step b).Avoids bad := by
  induction xs with
  | nil => exact fun b => .ok b
  | cons x rest ih =>
    intro b
    rw [List.foldlM_cons]
    refine bind (hstep b x List.mem_cons_self) fun b' _ => ?_
    exact ih (fun b y hy => hstep b y (List.mem_cons_of_mem _ hy)) b'

theorem forM {f : α → Except ε Unit} {xs : List α} (hf : ∀ x ∈ xs, (f x).Avoids bad) :
    (xs.forM f).Avoids bad := by
  intro e h
  obtain ⟨earlier, x, later, rfl, _, hx⟩ := forM_eq_error_iff.mp h
  exact hf x (List.mem_append_right _ List.mem_cons_self) e hx

theorem mapM {f : α → Except ε β} {xs : List α} (hf : ∀ x ∈ xs, (f x).Avoids bad) :
    (xs.mapM f).Avoids bad := by
  induction xs with
  | nil => exact .ok []
  | cons x rest ih =>
    obtain ⟨hx, hrest⟩ := List.forall_mem_cons.mp hf
    rw [List.mapM_cons]
    exact bind hx fun y _ => bind (ih hrest) fun ys _ => .ok (y :: ys)

end Avoids

/-! ## The first of several errors -/

/-- The computation fails just where there are errors, and then with the first of them. -/
def Blames (x : Except ε α) (errors : List ε) : Prop :=
  match x with
  | .ok _ => errors = []
  | .error e => errors.head? = some e

namespace Blames

variable {x : Except ε α} {errors : List ε}

theorem ok (a : α) : (Except.ok a : Except ε α).Blames [] := rfl

theorem error (e : ε) (later : List ε) : (Except.error e : Except ε α).Blames (e :: later) := rfl

theorem exists_ok_iff (h : x.Blames errors) : (∃ a, x = .ok a) ↔ errors = [] := by
  cases x with
  | ok a => exact ⟨fun _ => h, fun _ => ⟨a, rfl⟩⟩
  | error e =>
    constructor
    · rintro ⟨a, ha⟩
      cases ha
    · rintro rfl
      cases h

theorem eq_error_iff (h : x.Blames errors) {e : ε} : x = .error e ↔ errors.head? = some e := by
  cases x with
  | ok a =>
    have hnone : errors = [] := h
    simp [hnone]
  | error e' =>
    have hfirst : errors.head? = some e' := h
    simp [hfirst]

/-- What is left of a computation finds its errors behind those found so far. -/
theorem bind {f : α → Except ε β} {later : List ε} (hx : x.Blames errors)
    (hf : ∀ a, x = .ok a → (f a).Blames later) : (x >>= f).Blames (errors ++ later) := by
  cases x with
  | ok a =>
    have hnone : errors = [] := hx
    rw [hnone]
    exact hf a rfl
  | error e => exact (List.head?_append).trans (by rw [show errors.head? = some e from hx]; rfl)

/-- Whatever is made of the result, no errors are added. -/
theorem andThen {f : α → β} (hx : x.Blames errors) :
    (x >>= fun a => pure (f a) : Except ε β).Blames errors := by
  have h := hx.bind (f := fun a => pure (f a)) fun a _ => ok (f a)
  rwa [List.append_nil] at h

theorem mapM {f : α → Except ε β} {found : α → List ε} {xs : List α}
    (hf : ∀ x ∈ xs, (f x).Blames (found x)) : (xs.mapM f).Blames (xs.flatMap found) := by
  induction xs with
  | nil => exact ok []
  | cons x rest ih =>
    obtain ⟨hx, hrest⟩ := List.forall_mem_cons.mp hf
    rw [List.mapM_cons, List.flatMap_cons]
    exact hx.bind fun y _ => (ih hrest).andThen

theorem foldlM {step : β → α → Except ε β} {found : α → List ε} {xs : List α}
    (hstep : ∀ b, ∀ x ∈ xs, (step b x).Blames (found x)) :
    ∀ b, (xs.foldlM step b).Blames (xs.flatMap found) := by
  induction xs with
  | nil => exact ok
  | cons x rest ih =>
    intro b
    rw [List.foldlM_cons, List.flatMap_cons]
    refine (hstep b x List.mem_cons_self).bind fun b' _ => ?_
    exact ih (fun b y hy => hstep b y (List.mem_cons_of_mem _ hy)) b'

end Blames

end Except
