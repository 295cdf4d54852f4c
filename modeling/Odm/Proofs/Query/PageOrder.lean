import Odm.Proofs.Query.Calls
import Odm.Proofs.Query.Rows

/-!
# Orderings behind paging

Paging is meant to lock the orderings: once a limit or an offset is there, terms may come behind
those in force and nothing else may happen to them. All calls but one keep to that.
`clearOrdering` asks nothing, so a run that makes this call has none of the former terms left, and
a run without it has all of them in front. No query operator makes the call, so queries under
operators keep the order of their pages.
-/

namespace Odm

namespace Select

variable {q q' : Select} {c : Call}

/-- A statement that has a limit or an offset. -/
def IsPaged (q : Select) : Prop := q.limit.isSome ∨ q.offset.isSome

theorem afterAll_append (q : Select) (earlier later : List Call) :
    q.afterAll (earlier ++ later) = (q.afterAll earlier).afterAll later :=
  List.foldl_append

/-- A limit or an offset stays, and a call for one brings it unless there is one. -/
theorem isPaged_after_iff (q : Select) (c : Call) :
    (q.after c).IsPaged ↔ q.IsPaged ∨ c.limit?.isSome ∨ c.offset?.isSome := by
  have hstep := after_step q c
  rw [IsPaged, IsPaged, hstep.limit, hstep.offset, Option.isSome_or, Option.isSome_or,
    Bool.or_eq_true, Bool.or_eq_true]
  exact or_or_or_comm

theorem IsPaged.after (h : q.IsPaged) (c : Call) : (q.after c).IsPaged :=
  (isPaged_after_iff q c).mpr (.inl h)

theorem IsPaged.afterAll (calls : List Call) : ∀ {q : Select}, q.IsPaged →
    (q.afterAll calls).IsPaged := by
  induction calls with
  | nil => exact fun h => h
  | cons c rest ih => exact fun h => ih (h.after c)

/-- A call for a limit or an offset is about nothing else. -/
theorem Reorders.eq_of_paging {orderings : List OrderTerm} (h : Reorders q c orderings)
    (hc : c.limit?.isSome ∨ c.offset?.isSome) : orderings = q.orderings := by
  cases h with
  | kept _ => rfl
  | _ => simp [Call.limit?, Call.offset?] at hc

/-- On a page only one call can do more to the orderings than append a term. -/
theorem Reorders.eq_or_append {orderings : List OrderTerm} (h : Reorders q c orderings)
    (hpaged : q.IsPaged) (hclear : c ≠ .clearOrdering) : orderings = q.orderings
      ∨ ∃ term, c = .appendOrdering term ∧ orderings = q.orderings ++ [term] := by
  have hunpaged : ¬ (q.limit = none ∧ q.offset = none) := by
    rintro ⟨hlimit, hoffset⟩
    simp [IsPaged, hlimit, hoffset] at hpaged
  cases h with
  | kept _ => exact .inl rfl
  | replaced hlimit hoffset => exact absurd ⟨hlimit, hoffset⟩ hunpaged
  | @appended term _ => exact .inr ⟨term, rfl, rfl⟩
  | cleared => exact absurd rfl hclear
  | reversed hlimit hoffset => exact absurd ⟨hlimit, hoffset⟩ hunpaged

/-- A term that is appended is ordered by, unless something with its expression was. -/
theorem expression_mem_appendOrdering (q : Select) (term : OrderTerm) :
    term.expression ∈ (q.appendOrdering term).orderings.map (·.expression) := by
  unfold appendOrdering
  split
  · rename_i hmem
    simpa using hmem
  · simp

/-! ## Terms behind terms -/

/-- What calls make of orderings to which they only add. -/
structure Continues (before : List OrderTerm) (calls : List Call) (orderings : List OrderTerm) :
    Prop where
  /-- Terms that the calls append, in their order, and no others come behind the former ones. -/
  behind : ∃ added, orderings = before ++ added
    ∧ added.Sublist (calls.filterMap Call.appended?)
  /-- Whatever a call appends is ordered by. -/
  reached : ∀ term ∈ calls.filterMap Call.appended?,
    term.expression ∈ orderings.map (·.expression)

theorem Continues.nil (orderings : List OrderTerm) : Continues orderings [] orderings :=
  ⟨⟨[], (List.append_nil _).symm, .slnil⟩, nofun⟩

theorem Continues.isPrefix {before orderings : List OrderTerm} {calls : List Call}
    (h : Continues before calls orderings) : before <+: orderings := by
  obtain ⟨added, rfl, _⟩ := h.behind
  exact List.prefix_append before added

theorem Continues.append {before between orderings : List OrderTerm} {earlier later : List Call}
    (h : Continues before earlier between) (h' : Continues between later orderings) :
    Continues before (earlier ++ later) orderings := by
  have hkept := h'.isPrefix
  obtain ⟨first, hbetween, hfirst⟩ := h.behind
  obtain ⟨second, horderings, hsecond⟩ := h'.behind
  constructor
  case behind =>
    refine ⟨first ++ second, ?_, ?_⟩
    · rw [horderings, hbetween, List.append_assoc]
    · -- terms of the later calls come behind those of the earlier ones
      rw [List.filterMap_append]
      exact hfirst.append hsecond
  case reached =>
    intro term hterm
    rw [List.filterMap_append] at hterm
    rcases List.mem_append.mp hterm with hearlier | hlater
    · -- what is ordered by already is ordered by after more terms
      exact (hkept.map (·.expression)).subset (h.reached term hearlier)
    · exact h'.reached term hlater

/-- One call adds to the orderings of a page, unless it is the one that clears them. -/
theorem IsPaged.after_continues (h : q.IsPaged) (hclear : c ≠ .clearOrdering) :
    Continues q.orderings [c] (q.after c).orderings := by
  constructor
  case behind =>
    -- paging excludes all calls that replace or reverse orderings
    rcases (after_step q c).orderings.eq_or_append h hclear with hkept | ⟨term, rfl, happended⟩
    · exact ⟨[], by rw [hkept, List.append_nil], List.nil_sublist _⟩
    · exact ⟨[term], happended, .refl _⟩
  case reached =>
    intro term hterm
    obtain ⟨c', hc', hterm⟩ := List.mem_filterMap.mp hterm
    cases List.mem_singleton.mp hc'
    -- the term of the call itself is ordered by afterwards
    cases c with
    | appendOrdering term' =>
      cases hterm
      rw [after_of_ok (q := q) (c := .appendOrdering term) rfl]
      exact expression_mem_appendOrdering q term
    | _ => cases hterm

/-- **Without `clearOrdering` a page keeps its order.** -/
theorem IsPaged.afterAll_continues (calls : List Call) : ∀ {q : Select}, q.IsPaged →
    .clearOrdering ∉ calls → Continues q.orderings calls (q.afterAll calls).orderings := by
  induction calls with
  | nil => exact fun _ _ => .nil _
  | cons c rest ih =>
    intro q hpaged hclear
    obtain ⟨hc, hrest⟩ := List.ne_and_not_mem_of_not_mem_cons hclear
    exact (hpaged.after_continues hc.symm).append (ih (hpaged.after c) hrest)

/-- **After `clearOrdering` a page has a new order**, of terms that later calls append. -/
theorem IsPaged.afterAll_cleared (h : q.IsPaged) (earlier : List Call) {later : List Call}
    (hclear : .clearOrdering ∉ later) :
    Continues [] later (q.afterAll (earlier ++ .clearOrdering :: later)).orderings := by
  have hpaged : ((q.afterAll earlier).after .clearOrdering).IsPaged := (h.afterAll earlier).after _
  have hcleared : ((q.afterAll earlier).after .clearOrdering).orderings = [] := by
    rw [after_of_ok (q := q.afterAll earlier) (c := .clearOrdering) rfl]
    rfl
  have hlater := hpaged.afterAll_continues later hclear
  rw [hcleared] at hlater
  rw [afterAll_append]
  exact hlater

/-! ## Query operators -/

/-- A statement that calls other than `clearOrdering` have made of another one. -/
def Follows (q q' : Select) : Prop :=
  ∃ calls, .clearOrdering ∉ calls ∧ q' = q.afterAll calls

theorem Follows.refl (q : Select) : Follows q q := ⟨[], nofun, rfl⟩

theorem Follows.trans {q'' : Select} (h : Follows q q') (h' : Follows q' q'') :
    Follows q q'' := by
  obtain ⟨earlier, hearlier, rfl⟩ := h
  obtain ⟨later, hlater, rfl⟩ := h'
  exact ⟨earlier ++ later, by simp [hearlier, hlater], (afterAll_append q earlier later).symm⟩

theorem Follows.call (hclear : c ≠ .clearOrdering) (h : c.result q = .ok q') : Follows q q' :=
  ⟨[c], by simpa using hclear.symm, (after_of_ok h).symm⟩

theorem Follows.orderings (h : Follows q q') (hpaged : q.IsPaged) :
    q.orderings <+: q'.orderings := by
  obtain ⟨calls, hclear, rfl⟩ := h
  exact (hpaged.afterAll_continues calls hclear).isPrefix

end Select

namespace ShapedQuery

open Select (Call Follows)

variable {t : Translator} {query query' : ShapedQuery}

theorem follows_filter {predicate : HostExpr} (h : query.filter t predicate = .ok query') :
    Follows query.select query'.select := by
  obtain ⟨s, _, hselect⟩ := filter_eq_ok h
  rw [hselect]
  exact .call (c := .applyPredicate s) nofun rfl

theorem follows_orderBy {key : HostExpr} {ascending : Bool}
    (h : query.orderBy t key ascending = .ok query') : Follows query.select query'.select := by
  obtain ⟨s, _, h⟩ := Except.bind_eq_ok_iff.mp h
  obtain ⟨select, hselect, h⟩ := Except.bind_eq_ok_iff.mp h
  cases Except.pure_eq_ok_iff.mp h
  exact .call (c := .applyOrdering ⟨s, ascending⟩) nofun hselect

theorem follows_thenBy {key : HostExpr} {ascending : Bool}
    (h : query.thenBy t key ascending = .ok query') : Follows query.select query'.select := by
  obtain ⟨s, _, h⟩ := Except.bind_eq_ok_iff.mp h
  cases Except.pure_eq_ok_iff.mp h
  exact .call (c := .appendOrdering ⟨s, ascending⟩) nofun rfl

theorem follows_take {count : HostExpr} (h : query.take t count = .ok query') :
    Follows query.select query'.select := by
  obtain ⟨s, _, h⟩ := Except.bind_eq_ok_iff.mp h
  obtain ⟨select, hselect, h⟩ := Except.bind_eq_ok_iff.mp h
  cases Except.pure_eq_ok_iff.mp h
  exact .call (c := .applyLimit s) nofun hselect

theorem follows_skip {count : HostExpr} (h : query.skip t count = .ok query') :
    Follows query.select query'.select := by
  obtain ⟨s, _, h⟩ := Except.bind_eq_ok_iff.mp h
  obtain ⟨select, hselect, h⟩ := Except.bind_eq_ok_iff.mp h
  cases Except.pure_eq_ok_iff.mp h
  exact .call (c := .applyOffset s) nofun hselect

theorem follows_reverse (h : query.reverse = .ok query') :
    Follows query.select query'.select := by
  obtain ⟨select, hselect, h⟩ := Except.bind_eq_ok_iff.mp h
  cases Except.pure_eq_ok_iff.mp h
  exact .call (c := .reverseOrderings) nofun hselect

theorem follows_limitResults {predicate : Option HostExpr} {n : Nat}
    (h : query.limitResults t predicate n = .ok query') :
    Follows query.select query'.select := by
  obtain ⟨filtered, rfl | ⟨p, hfiltered⟩, htake⟩ := limitResults_eq_ok h
  · exact follows_take htake
  · exact (follows_filter hfiltered).trans (follows_take htake)

/-- **Operators are calls**, none of them for `clearOrdering`. -/
theorem Operated.follows {created : ShapedQuery} (h : Operated t created query) :
    Follows created.select query.select := by
  induction h with
  | created => exact .refl created.select
  | filter _ h ih => exact ih.trans (follows_filter h)
  | orderBy _ h ih => exact ih.trans (follows_orderBy h)
  | thenBy _ h ih => exact ih.trans (follows_thenBy h)
  | take _ h ih => exact ih.trans (follows_take h)
  | skip _ h ih => exact ih.trans (follows_skip h)
  | distinct _ ih => exact ih.trans (.call (c := .applyDistinct) nofun rfl)
  | reverse _ h ih => exact ih.trans (follows_reverse h)
  | first _ h ih => exact ih.trans (follows_limitResults h)
  | single _ h ih => exact ih.trans (follows_limitResults h)

end ShapedQuery

namespace Select

/-- **Paging locks the orderings for all calls but one.** Once a call has asked for a limit or an
offset, calls other than `clearOrdering` leave the orderings in force as they are and only put
further terms behind them. A call of `clearOrdering` takes all of them away, so that only terms
appended afterwards are left. Query operators never make it. -/
theorem paging_locks_orderings (q : Select) (paging : Call)
    (hpaging : paging.limit?.isSome ∨ paging.offset?.isSome) :
    (∀ calls, .clearOrdering ∉ calls →
        Continues q.orderings calls (q.afterAll (paging :: calls)).orderings)
      ∧ (∀ earlier later, .clearOrdering ∉ later →
        Continues [] later (q.afterAll (paging :: earlier ++ .clearOrdering :: later)).orderings)
      ∧ ∀ (t : Translator) (paged query : ShapedQuery), paged.select = q.after paging →
        ShapedQuery.Operated t paged query → q.orderings <+: query.select.orderings := by
  have hpaged := (isPaged_after_iff q paging).mpr (.inr hpaging)
  have horderings := (after_step q paging).orderings.eq_of_paging hpaging
  refine ⟨?_, ?_, ?_⟩
  · intro calls hclear
    rw [← horderings]
    exact hpaged.afterAll_continues calls hclear
  · intro earlier later hclear
    exact hpaged.afterAll_cleared earlier hclear
  · intro t paged query hselect h
    rw [← horderings, ← hselect]
    refine h.follows.orderings ?_
    rw [hselect]
    exact hpaged

/-- Old people first. -/
def oldFirst : OrderTerm := ⟨whether "old", false⟩

/-- All people in this order. -/
def peopleOldFirst : Select := allPeople.select.appendOrdering oldFirst

theorem paging_locks_orderings_people :
    (Call.applyLimit (rowsOf 1)).limit?.isSome
      ∧ peopleOldFirst.orderings = [oldFirst]
      ∧ Continues peopleOldFirst.orderings [.reverseOrderings]
        (peopleOldFirst.afterAll [.applyLimit (rowsOf 1), .reverseOrderings]).orderings :=
  ⟨rfl, rfl, (paging_locks_orderings peopleOldFirst (.applyLimit (rowsOf 1)) (.inl rfl)).1
    [.reverseOrderings] (by decide)⟩

/-- **The order of a page is not locked.** People sorted by rank, of whom the first is taken: the
call is accepted and the page is in no order any more, and with one more call it is in another. -/
theorem page_reordered : ∃ ranked page,
    allPeople.orderBy { schema := people } rankKey true = .ok ranked
      ∧ ranked.take { schema := people } (rowCount 1) = .ok page
      ∧ page.select.IsPaged
      ∧ page.select.orderings = ranked.select.orderings
      ∧ Call.clearOrdering.edit.run page.select = .ok () page.select.clearOrdering
      ∧ ¬ page.select.orderings <+: (page.select.afterAll [.clearOrdering]).orderings
      ∧ (page.select.afterAll [.clearOrdering, .appendOrdering oldFirst]).orderings
        = [oldFirst] :=
  ⟨_, _, rfl, rfl, .inl rfl, rfl, rfl, by decide, by decide⟩

end Select

end Odm
