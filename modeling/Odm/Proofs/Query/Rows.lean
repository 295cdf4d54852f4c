import Odm.Proofs.Query.Operated
import Odm.Query.FindPlan

/-!
# The rows of a statement

A statement keeps the documents that satisfy its predicate, sorts them by its orderings, drops
as many as its offset says and keeps as many as its limit says, always in this order. Query
operators only fill in the parts of a statement, so what an operator does to the rows depends on
the parts that are there already.

* A filter applied before paging filters the rows, because filtering and stable sorting commute.
* A limit always cuts the rows. An offset drops rows, unless there is a limit: then the rows are
  dropped first, whichever of the two was asked for first.
* Once there is a limit or an offset the order of the rows is settled, and the operators that
  would replace or reverse it fail, as does a second limit or a second offset.

Nothing of the kind is said of filters and further keys behind paging. They choose other
documents for the page.
-/

namespace List

variable {δ : Type} {le : δ → δ → Bool}

/-! ## Filters and stable sorting -/

/-- Sorting puts one more element behind those that are less and in front of all others. -/
theorem mergeSort_cons_eq (htrans : ∀ a b c, le a b → le b c → le a c)
    (htotal : ∀ a b, le a b || le b a) (d : δ) (docs : List δ) :
    (d :: docs).mergeSort le = (docs.mergeSort le).filter (fun e => !le d e)
      ++ d :: (docs.mergeSort le).filter (le d) := by
  obtain ⟨less, others, hsort, hrest, hless⟩ := mergeSort_cons htrans htotal d docs
  -- those behind the new element are not less, since the list is sorted
  have hothers : ∀ e ∈ others, le d e = true := by
    intro e he
    have hpair := pairwise_mergeSort htrans htotal (d :: docs)
    rw [hsort] at hpair
    exact rel_of_pairwise_cons (pairwise_append.mp hpair).2.1 he
  have hl : less.filter (le d) = [] := by
    rw [filter_eq_nil_iff]
    intro e he
    simpa using hless e he
  have ho : others.filter (fun e => !le d e) = [] := by
    rw [filter_eq_nil_iff]
    intro e he
    simp [hothers e he]
  -- so that filtering by the order tells the two parts apart
  rw [hsort, hrest, filter_append, filter_append, filter_eq_self.mpr hless, ho, hl,
    filter_eq_self.mpr hothers, append_nil, nil_append]

/-- Stable sorting one element after the other. -/
theorem mergeSort_eq_foldr (htrans : ∀ a b c, le a b → le b c → le a c)
    (htotal : ∀ a b, le a b || le b a) (docs : List δ) :
    docs.mergeSort le = docs.foldr
      (fun d sorted => sorted.filter (fun e => !le d e) ++ d :: sorted.filter (le d)) [] := by
  induction docs with
  | nil => exact mergeSort_nil
  | cons d rest ih => rw [mergeSort_cons_eq htrans htotal, ih, foldr_cons]

/-- **Filtering and stable sorting commute.** -/
theorem filter_mergeSort (htrans : ∀ a b c, le a b → le b c → le a c)
    (htotal : ∀ a b, le a b || le b a) (p : δ → Bool) (docs : List δ) :
    (docs.mergeSort le).filter p = (docs.filter p).mergeSort le := by
  induction docs with
  | nil => simp
  | cons d rest ih =>
    by_cases hd : p d
    · -- Both sides put `d` at the same place, between what the other filters leave.
      rw [filter_cons_of_pos hd, mergeSort_cons_eq htrans htotal, mergeSort_cons_eq htrans htotal,
        ← ih, filter_append, filter_cons_of_pos hd, filter_filter, filter_filter, filter_filter,
        filter_filter]
      simp only [Bool.and_comm]
    · obtain ⟨less, others, hsort, hrest, _⟩ := mergeSort_cons htrans htotal d rest
      rw [filter_cons_of_neg hd, ← ih, hsort, hrest, filter_append, filter_append,
        filter_cons_of_neg hd]

end List

namespace Odm

/-! ## Reading statements -/

/-- A way to read statements: what documents give to scalars, which values are taken as true,
and how values are sorted. -/
structure Reading (δ α : Type) where
  values : δ → Interpretation α
  holds : α → Bool
  le : α → α → Bool
  holds_true : ∀ d, holds ((values d).literal (.bool true)) = true
  holds_andAlso : ∀ d a b, holds ((values d).binary .andAlso a b) = (holds a && holds b)
  le_trans : ∀ a b c, le a b → le b c → le a c
  le_total : ∀ a b, le a b || le b a

namespace Reading

variable {δ α : Type}

/-- Whether a document satisfies a predicate. -/
def satisfies (R : Reading δ α) (predicate : Scalar) (d : δ) : Bool :=
  R.holds (predicate.eval (R.values d))

/-- Whether a document does not come after another one by a term of an ordering. -/
def termLe (R : Reading δ α) (term : OrderTerm) (d e : δ) : Bool :=
  let a := term.expression.eval (R.values d)
  let b := term.expression.eval (R.values e)
  if term.ascending then R.le a b else R.le b a

/-- The same by several terms, of which a later one counts where those before it tie. -/
def docLe (R : Reading δ α) : List OrderTerm → δ → δ → Bool
  | [], _, _ => true
  | term :: rest, d, e => R.termLe term d e && (!R.termLe term e d || R.docLe rest d e)

/-- The documents that satisfy the predicate of a statement. -/
def kept (R : Reading δ α) (q : Select) (docs : List δ) : List δ :=
  match q.predicate with
  | none => docs
  | some predicate => docs.filter (R.satisfies predicate)

/-- The documents that satisfy the predicate, stably sorted by the orderings. -/
def sorted (R : Reading δ α) (q : Select) (docs : List δ) : List δ :=
  (R.kept q docs).mergeSort (R.docLe q.orderings)

/-- A page of a list: `offset` rows dropped, then no more than `limit` kept. -/
def page (offset limit : Option Nat) (rows : List δ) : List δ :=
  let rest := rows.drop (offset.getD 0)
  match limit with
  | none => rest
  | some n => rest.take n

/-- The rows of a statement over a list of documents. -/
def rows (R : Reading δ α) (parameters : Parameters) (q : Select) (docs : List δ) :
    Except QueryError (List δ) := do
  let offset ← FindPlan.pagingCount? parameters q.offset
  let limit ← FindPlan.pagingCount? parameters q.limit
  return page offset limit (R.sorted q docs)

/-! ## Orderings -/

theorem termLe_total (R : Reading δ α) (term : OrderTerm) (d e : δ) :
    R.termLe term d e || R.termLe term e d := by
  unfold termLe
  split
  · exact R.le_total _ _
  · exact R.le_total _ _

theorem termLe_trans (R : Reading δ α) (term : OrderTerm) (d e f : δ)
    (hde : R.termLe term d e) (hef : R.termLe term e f) : R.termLe term d f := by
  cases ha : term.ascending with
  | true =>
    simp only [termLe, ha, if_true] at *
    exact R.le_trans _ _ _ hde hef
  | false =>
    simp only [termLe, ha, Bool.false_eq_true, if_false] at *
    exact R.le_trans _ _ _ hef hde

theorem docLe_total (R : Reading δ α) (orderings : List OrderTerm) (d e : δ) :
    R.docLe orderings d e || R.docLe orderings e d := by
  induction orderings with
  | nil => rfl
  | cons term rest ih =>
    have ht := R.termLe_total term d e
    simp only [docLe]
    cases hde : R.termLe term d e <;> cases hed : R.termLe term e d <;> simp_all

theorem docLe_trans (R : Reading δ α) (orderings : List OrderTerm) (d e f : δ)
    (hde : R.docLe orderings d e) (hef : R.docLe orderings e f) : R.docLe orderings d f := by
  induction orderings with
  | nil => rfl
  | cons term rest ih =>
    simp only [docLe, Bool.and_eq_true, Bool.or_eq_true, Bool.not_eq_true'] at *
    refine ⟨R.termLe_trans term d e f hde.1 hef.1, ?_⟩
    by_cases hfd : R.termLe term f d
    · -- All three tie by this term.
      have hfe := R.termLe_trans term f d e hfd hde.1
      have hed := R.termLe_trans term e f d hef.1 hfd
      exact .inr (ih (hde.2.resolve_left (by simp [hed])) (hef.2.resolve_left (by simp [hfe])))
    · exact .inl (by simpa using hfd)

/-! ## Parts of a statement -/

theorem satisfies_of_isTrue (R : Reading δ α) {predicate : Scalar} (h : predicate.isTrue)
    (d : δ) : R.satisfies predicate d = true := by
  unfold Scalar.isTrue at h
  split at h
  · exact R.holds_true d
  · cases h

/-- **One more predicate keeps, of what was kept, what satisfies it.** -/
theorem kept_applyPredicate (R : Reading δ α) (q : Select) (predicate : Scalar)
    (docs : List δ) :
    R.kept (q.applyPredicate predicate) docs
      = (R.kept q docs).filter (R.satisfies predicate) := by
  unfold Select.applyPredicate
  split
  · -- A predicate that is always true is left out.
    rename_i htrue
    rw [List.filter_eq_self.mpr fun d _ => R.satisfies_of_isTrue htrue d]
  · cases hq : q.predicate with
    | none => simp only [kept, hq]
    | some existing =>
      simp only [kept, hq, List.filter_filter]
      apply List.filter_congr
      intro d _
      simp only [satisfies, Scalar.eval, R.holds_andAlso, Bool.and_comm]

theorem applyPredicate_orderings (q : Select) (predicate : Scalar) :
    (q.applyPredicate predicate).orderings = q.orderings := by
  unfold Select.applyPredicate
  split
  · rfl
  · split <;> rfl

theorem applyPredicate_paging (q : Select) (predicate : Scalar) :
    (q.applyPredicate predicate).offset = q.offset
      ∧ (q.applyPredicate predicate).limit = q.limit := by
  unfold Select.applyPredicate
  split
  · exact ⟨rfl, rfl⟩
  · split <;> exact ⟨rfl, rfl⟩

theorem sorted_applyPredicate (R : Reading δ α) (q : Select) (predicate : Scalar)
    (docs : List δ) :
    R.sorted (q.applyPredicate predicate) docs
      = (R.sorted q docs).filter (R.satisfies predicate) := by
  rw [sorted, sorted, applyPredicate_orderings, kept_applyPredicate,
    List.filter_mergeSort (R.docLe_trans _) (R.docLe_total _)]

/-- A statement without paging has all that it sorted for rows. -/
theorem rows_of_unpaged (R : Reading δ α) {parameters : Parameters} {q : Select}
    {docs : List δ} (hlimit : q.limit = none) (hoffset : q.offset = none) :
    R.rows parameters q docs = .ok (R.sorted q docs) := by
  simp only [rows, hlimit, hoffset, FindPlan.pagingCount?]
  rfl

theorem rows_applyPredicate (R : Reading δ α) {parameters : Parameters} {q : Select}
    {predicate : Scalar} {docs : List δ} (hlimit : q.limit = none) (hoffset : q.offset = none) :
    R.rows parameters (q.applyPredicate predicate) docs
      = (R.rows parameters q docs).map (·.filter (R.satisfies predicate)) := by
  obtain ⟨ho, hl⟩ := applyPredicate_paging q predicate
  rw [R.rows_of_unpaged hlimit hoffset, R.rows_of_unpaged (hl.trans hlimit) (ho.trans hoffset),
    sorted_applyPredicate]
  rfl

/-- **A limit cuts the rows**, to as many as it stands for. -/
theorem rows_limited (R : Reading δ α) {parameters : Parameters} {q : Select} (limit : Scalar)
    {docs : List δ} (hlimit : q.limit = none) :
    R.rows parameters { q with limit := some limit } docs = (do
      let rows ← R.rows parameters q docs
      let n ← FindPlan.pagingCount parameters limit
      return rows.take n) := by
  have hsorted : R.sorted { q with limit := some limit } docs = R.sorted q docs := rfl
  rw [rows, rows, hsorted, hlimit]
  cases FindPlan.pagingCount? parameters q.offset with
  | error e => rfl
  | ok offset =>
    rw [FindPlan.pagingCount?, FindPlan.pagingCount?]
    cases FindPlan.pagingCount parameters limit with
    | error e => rfl
    | ok n => rfl

/-- **An offset drops rows before a limit cuts them**, whether or not there is a limit. -/
theorem rows_skipped (R : Reading δ α) {parameters : Parameters} {q : Select} (offset : Scalar)
    {docs : List δ} :
    R.rows parameters { q with offset := some offset } docs = (do
      let n ← FindPlan.pagingCount parameters offset
      let limit ← FindPlan.pagingCount? parameters q.limit
      return page (some n) limit (R.sorted q docs)) := by
  have hsorted : R.sorted { q with offset := some offset } docs = R.sorted q docs := rfl
  rw [rows, hsorted, FindPlan.pagingCount?]
  cases FindPlan.pagingCount parameters offset with
  | error e => rfl
  | ok n => rfl

/-- Where there is no limit, an offset drops rows. -/
theorem rows_skipped_of_unlimited (R : Reading δ α) {parameters : Parameters} {q : Select}
    (offset : Scalar) {docs : List δ} (hoffset : q.offset = none) (hlimit : q.limit = none) :
    R.rows parameters { q with offset := some offset } docs = (do
      let rows ← R.rows parameters q docs
      let n ← FindPlan.pagingCount parameters offset
      return rows.drop n) := by
  rw [rows_skipped R offset, R.rows_of_unpaged hlimit hoffset, hlimit,
    FindPlan.pagingCount?]
  cases FindPlan.pagingCount parameters offset with
  | error e => rfl
  | ok n => rfl

end Reading

/-! ## Query operators -/

namespace ShapedQuery

variable {t : Translator} {query query' : ShapedQuery} {e : HostExpr}

theorem filter_eq_ok (h : query.filter t e = .ok query') : ∃ s,
    query.translateLambda t e = .ok s ∧ query'.select = query.select.applyPredicate s := by
  obtain ⟨s, hs, h⟩ := Except.bind_eq_ok_iff.mp h
  cases Except.pure_eq_ok_iff.mp h
  exact ⟨s, hs, rfl⟩

theorem take_eq_ok (h : query.take t e = .ok query') : ∃ s,
    query.translate t e = .ok s ∧ query.select.limit = none
      ∧ query'.select = { query.select with limit := some s } := by
  obtain ⟨s, hs, h⟩ := Except.bind_eq_ok_iff.mp h
  obtain ⟨select, hselect, h⟩ := Except.bind_eq_ok_iff.mp h
  cases Except.pure_eq_ok_iff.mp h
  obtain ⟨hlimit, rfl⟩ := Select.applyLimit_eq_ok_iff.mp hselect
  exact ⟨s, hs, hlimit, rfl⟩

theorem skip_eq_ok (h : query.skip t e = .ok query') : ∃ s,
    query.translate t e = .ok s ∧ query.select.offset = none
      ∧ query'.select = { query.select with offset := some s } := by
  obtain ⟨s, hs, h⟩ := Except.bind_eq_ok_iff.mp h
  obtain ⟨select, hselect, h⟩ := Except.bind_eq_ok_iff.mp h
  cases Except.pure_eq_ok_iff.mp h
  obtain ⟨hoffset, rfl⟩ := Select.applyOffset_eq_ok_iff.mp hselect
  exact ⟨s, hs, hoffset, rfl⟩

theorem orderBy_eq_ok {ascending : Bool} (h : query.orderBy t e ascending = .ok query') :
    query.select.limit = none ∧ query.select.offset = none := by
  obtain ⟨s, _, h⟩ := Except.bind_eq_ok_iff.mp h
  obtain ⟨select, hselect, _⟩ := Except.bind_eq_ok_iff.mp h
  obtain ⟨_, hlimit, hoffset, _⟩ := Select.applyOrdering_eq_ok_iff.mp hselect
  exact ⟨hlimit, hoffset⟩

theorem reverse_eq_ok (h : query.reverse = .ok query') :
    query.select.limit = none ∧ query.select.offset = none := by
  obtain ⟨select, hselect, _⟩ := Except.bind_eq_ok_iff.mp h
  obtain ⟨hlimit, hoffset, _⟩ := Select.reverseOrderings_eq_ok_iff.mp hselect
  exact ⟨hlimit, hoffset⟩

end ShapedQuery

/-- **Query operators act on the rows.** A filter before paging filters them, a limit cuts them,
an offset drops them or, where there is a limit, makes the limit count from behind it. Once
there is paging, a second limit, a second offset and any other order are refused. -/
theorem rows_compose {δ α : Type} (R : Reading δ α) (parameters : Parameters) (t : Translator)
    (query : ShapedQuery) (docs : List δ) :
    (∀ predicate query', query.select.limit = none → query.select.offset = none →
      query.filter t predicate = .ok query' → ∃ s,
        query.translateLambda t predicate = .ok s
          ∧ R.rows parameters query'.select docs
            = (R.rows parameters query.select docs).map (·.filter (R.satisfies s)))
      ∧ (∀ count query', query.take t count = .ok query' → ∃ s,
        query.translate t count = .ok s ∧ query.select.limit = none
          ∧ R.rows parameters query'.select docs = (do
            let rows ← R.rows parameters query.select docs
            let n ← FindPlan.pagingCount parameters s
            return rows.take n))
      ∧ (∀ count query', query.skip t count = .ok query' → ∃ s,
        query.translate t count = .ok s ∧ query.select.offset = none
          ∧ (query.select.limit = none → R.rows parameters query'.select docs = (do
            let rows ← R.rows parameters query.select docs
            let n ← FindPlan.pagingCount parameters s
            return rows.drop n))
          ∧ (∀ limit, query.select.limit = some limit →
            R.rows parameters query'.select docs = (do
              let n ← FindPlan.pagingCount parameters s
              let m ← FindPlan.pagingCount parameters limit
              return ((R.sorted query.select docs).drop n).take m)))
      ∧ (query.select.limit ≠ none ∨ query.select.offset ≠ none → ∀ query',
        (∀ key ascending, query.orderBy t key ascending ≠ .ok query')
          ∧ query.reverse ≠ .ok query')
      ∧ R.rows parameters query.distinct.select docs = R.rows parameters query.select docs := by
  refine ⟨?_, ?_, ?_, ?_, rfl⟩
  · intro predicate query' hlimit hoffset h
    obtain ⟨s, hs, hselect⟩ := ShapedQuery.filter_eq_ok h
    rw [hselect]
    exact ⟨s, hs, R.rows_applyPredicate hlimit hoffset⟩
  · intro count query' h
    obtain ⟨s, hs, hlimit, hselect⟩ := ShapedQuery.take_eq_ok h
    rw [hselect]
    exact ⟨s, hs, hlimit, R.rows_limited s hlimit⟩
  · -- behind a limit the offset counts from the start of the sorted rows
    intro count query' h
    obtain ⟨s, hs, hoffset, hselect⟩ := ShapedQuery.skip_eq_ok h
    rw [hselect]
    refine ⟨s, hs, hoffset, R.rows_skipped_of_unlimited s hoffset, ?_⟩
    intro limit hlimit
    rw [R.rows_skipped s, hlimit]
    cases FindPlan.pagingCount parameters s with
    | error e => rfl
    | ok n =>
      rw [FindPlan.pagingCount?]
      cases FindPlan.pagingCount parameters limit with
      | error e => rfl
      | ok m => rfl
  · -- both refusals come from the guards of the operations
    intro hpaged query'
    refine ⟨?_, ?_⟩
    · intro key ascending h
      have hn := ShapedQuery.orderBy_eq_ok h
      exact hpaged.elim (fun hl => hl hn.1) (fun ho => ho hn.2)
    · intro h
      have hn := ShapedQuery.reverse_eq_ok h
      exact hpaged.elim (fun hl => hl hn.1) (fun ho => ho hn.2)

/-! ## People by rank -/

/-- A value as a number, which values of other kinds count as zero. -/
def Value.wholeOrZero : Value → Int
  | .num (.whole n) => n
  | _ => 0

/-- Statements over documents, sorted by whole numbers. -/
def Reading.ofDocuments (parameters : Parameters) : Reading Document Value where
  values := Interpretation.ofDocument parameters
  holds v := v = .bool true
  le a b := a.wholeOrZero ≤ b.wholeOrZero
  holds_true _ := by simp [Interpretation.ofDocument]
  holds_andAlso _ a b := by simp [Interpretation.ofDocument, BinaryOp.compute]
  le_trans a b c := by simpa using fun hab hbc => Int.le_trans hab hbc
  le_total a b := by simpa using Int.le_total a.wholeOrZero b.wholeOrZero

/-- A person's document. -/
def personDocument (id rank : Int) : Document := [("Rank", .int rank), ("_id", .int id)]

/-- Three people, of whom the second is of the first rank. -/
def somePeople : List Document := [personDocument 1 2, personDocument 2 1, personDocument 3 2]

/-- The rank of a person. -/
def rankKey : HostExpr :=
  .lambda [("p", .entity "Person")] (.member (.parameter "p" (.entity "Person")) "Rank" .byte)

/-- Whether a person is of the first rank. -/
def isFirst : HostExpr :=
  .lambda [("p", .entity "Person")]
    (.operate .equal (.member (.parameter "p" (.entity "Person")) "Rank" .byte)
      (.constant (.int 1) .byte))

/-- So many rows. -/
def rowCount (n : Int) : HostExpr := .constant (.int n) .int32

theorem rows_compose_firstPage : ∃ firsts page s count,
    allPeople.filter { schema := people } isFirst = .ok firsts
      ∧ firsts.take { schema := people } (rowCount 1) = .ok page
      ∧ page.select.limit ≠ none
      ∧ allPeople.translateLambda { schema := people } isFirst = .ok s
      ∧ firsts.translate { schema := people } (rowCount 1) = .ok count
      ∧ (Reading.ofDocuments []).rows [] firsts.select somePeople
        = ((Reading.ofDocuments []).rows [] allPeople.select somePeople).map
          (·.filter ((Reading.ofDocuments []).satisfies s))
      ∧ (Reading.ofDocuments []).rows [] page.select somePeople = (do
        let rows ← (Reading.ofDocuments []).rows [] firsts.select somePeople
        let n ← FindPlan.pagingCount [] count
        return rows.take n)
      ∧ page.reverse ≠ .ok page := by
  obtain ⟨firsts, page, hfirsts, hpage, hlimit⟩ : ∃ firsts page,
      allPeople.filter { schema := people } isFirst = .ok firsts
        ∧ firsts.take { schema := people } (rowCount 1) = .ok page
        ∧ page.select.limit ≠ none := ⟨_, _, rfl, rfl, nofun⟩
  obtain ⟨s, hs, hfiltered⟩ := (rows_compose (Reading.ofDocuments []) [] { schema := people }
    allPeople somePeople).1 isFirst firsts rfl rfl hfirsts
  obtain ⟨count, hcount, _, hcut⟩ := (rows_compose (Reading.ofDocuments []) []
    { schema := people } firsts somePeople).2.1 (rowCount 1) page hpage
  have hrefused := (rows_compose (Reading.ofDocuments []) [] { schema := people } page
    somePeople).2.2.2.1 (.inl hlimit) page
  exact ⟨firsts, page, s, count, hfirsts, hpage, hlimit, hs, hcount, hfiltered, hcut,
    hrefused.2⟩

/-- **Behind a limit neither a filter nor an offset nor one more key acts on the page.** When the
first person alone is on the page, a filter that this person does not satisfy puts the second one
there, and so does a key. When two are on the page, an offset lets the third one in. -/
theorem filter_skip_and_thenBy_leave_page :
    ShapedQuery.create { schema := people } "Person" = .ok allPeople
      ∧ (∃ page filtered keyed s,
        allPeople.take { schema := people } (rowCount 1) = .ok page
          ∧ page.filter { schema := people } isFirst = .ok filtered
          ∧ page.translateLambda { schema := people } isFirst = .ok s
          ∧ page.thenBy { schema := people } rankKey true = .ok keyed
          ∧ (Reading.ofDocuments []).rows [] page.select somePeople
            = .ok [personDocument 1 2]
          ∧ (Reading.ofDocuments []).satisfies s (personDocument 1 2) = false
          ∧ (Reading.ofDocuments []).rows [] filtered.select somePeople
            = .ok [personDocument 2 1]
          ∧ (Reading.ofDocuments []).rows [] keyed.select somePeople
            = .ok [personDocument 2 1])
      ∧ ∃ page skipped,
        allPeople.take { schema := people } (rowCount 2) = .ok page
          ∧ page.skip { schema := people } (rowCount 1) = .ok skipped
          ∧ (Reading.ofDocuments []).rows [] page.select somePeople
            = .ok [personDocument 1 2, personDocument 2 1]
          ∧ (Reading.ofDocuments []).rows [] skipped.select somePeople
            = .ok [personDocument 2 1, personDocument 3 2] := by
  have hsorted : ∀ q docs, (Reading.ofDocuments []).sorted q docs
      = ((Reading.ofDocuments []).kept q docs).foldr _ [] := fun q docs =>
    List.mergeSort_eq_foldr (Reading.docLe_trans _ q.orderings)
      (Reading.docLe_total _ q.orderings) _
  refine ⟨rfl, ⟨_, _, _, _, rfl, rfl, rfl, rfl, ?_, rfl, ?_, ?_⟩, _, _, rfl, rfl, ?_, ?_⟩
  all_goals
    rw [Reading.rows, hsorted]
    rfl

end Odm
