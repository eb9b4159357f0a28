import LedgerQuery.Proofs.Interval
import LedgerQuery.Timestamp.Filter
import Mathlib.Data.List.Forall2

/-!
# What merged filters mean

Merging loses nothing and adds nothing.  A number lies in the merged interval
when it satisfies every bound, and the two sets hold the values of the
equalities and of the exclusions.  The options decide whether there is a result,
never which one it is.
-/

namespace LedgerQuery.Timestamp

/-! ## Filters and conditions -/

/-- The filter has a known operator, and its value stands for a number. -/
def Filter.Reads (f : Filter) (c : Condition) : Prop :=
  Operator.ofWord? f.operator = some c.1 ∧ f.value.toInt = .ok c.2

theorem Filter.Reads.result_checkedOperator
    {f : Filter} {c : Condition} (read : f.Reads c) :
    f.checkedOperator.result = .ok c.1 := by
  rw [checkedOperator, read.1]
  rfl

theorem Filter.Reads.result_checkedValue
    {f : Filter} {c : Condition} (read : f.Reads c) :
    f.checkedValue.result = .ok c.2 := by
  rw [checkedValue, read.2]
  rfl

theorem result_conditions
    {filters : List Filter} {cs : List Condition}
    (read : List.Forall₂ Filter.Reads filters cs) :
    (conditions filters).result = .ok cs := by
  induction read with
  | nil => rfl
  | cons first _ ih =>
    rw [conditions, Traced.result_bind, first.result_checkedOperator, ok_bind,
      Traced.result_bind, first.result_checkedValue, ok_bind, Traced.result_bind, ih]
    rfl

/-- What conditions are merged into, whether or not there have to be any. -/
def mergedOf (options : Options) (cs : List Condition) : Except Fault Merged :=
  (checkStrict options cs).result >>= fun _ =>
    (mergedRange options cs).map fun range =>
      ⟨range, sortedDistinct (valuesOf .eq cs), sortedDistinct (valuesOf .ne cs)⟩

theorem mergedOf_nil (options : Options) : mergedOf options [] = .ok ⟨none, [], []⟩ := by
  have unfaulted : strictFault? options.allowNe [] = none := by
    cases allowed : options.allowNe <;> rfl
  rw [mergedOf, checkStrict, unfaulted]
  cases options.isStrict <;> rfl

/-- Merging is a matter of the conditions that the filters are read as. -/
theorem result_merge
    {filters : List Filter} {cs : List Condition}
    (read : List.Forall₂ Filter.Reads filters cs) (options : Options) :
    (merge options filters).result =
      if options.required = true ∧ cs = [] then .error (.range .noFilter)
      else mergedOf options cs := by
  cases read with
  | nil =>
    rw [merge, List.isEmpty_nil, if_pos rfl, mergedOf_nil]
    cases options.required <;> rfl
  | cons first others =>
    have parsed := result_conditions (List.Forall₂.cons first others)
    rw [if_neg (by simp), merge, List.isEmpty_cons, if_neg Bool.false_ne_true,
      Traced.result_bind, parsed, ok_bind, Traced.result_bind, mergedOf]
    apply congrArg (_ >>= ·)
    funext _
    rw [Traced.result_bind, Traced.result_lift]
    cases mergedRange options _ <;> rfl

/-! ## Sorted values -/

theorem mem_insertNew {m n : Int} {ns : List Int} : m ∈ insertNew n ns ↔ m = n ∨ m ∈ ns := by
  induction ns with
  | nil => simp [insertNew]
  | cons k ns ih =>
    rw [insertNew]
    split
    · exact List.mem_cons
    · split
      · next same =>
        subst same
        simp
      · rw [List.mem_cons, ih, List.mem_cons]
        exact or_left_comm

theorem pairwise_insertNew
    {ns : List Int} (increasing : ns.Pairwise (· < ·)) (n : Int) :
    (insertNew n ns).Pairwise (· < ·) := by
  induction increasing with
  | nil => exact List.pairwise_singleton _ _
  | @cons k ns above increasing ih =>
    have sorted : (k :: ns).Pairwise (· < ·) := List.pairwise_cons.mpr ⟨above, increasing⟩
    rw [insertNew]
    split
    · next less =>
      refine List.pairwise_cons.mpr ⟨?_, sorted⟩
      intro m member
      rcases List.mem_cons.mp member with rfl | member
      · exact less
      · exact Int.lt_trans less (above m member)
    · split
      · exact sorted
      · refine List.pairwise_cons.mpr ⟨?_, ih⟩
        intro m member
        rcases mem_insertNew.mp member with rfl | member
        · omega
        · exact above m member

theorem mem_sortedDistinct {n : Int} {ns : List Int} : n ∈ sortedDistinct ns ↔ n ∈ ns := by
  induction ns with
  | nil => rfl
  | cons m ns ih =>
    have step : sortedDistinct (m :: ns) = insertNew m (sortedDistinct ns) := rfl
    rw [step, mem_insertNew, ih, List.mem_cons]

theorem pairwise_sortedDistinct (ns : List Int) : (sortedDistinct ns).Pairwise (· < ·) := by
  induction ns with
  | nil => exact List.Pairwise.nil
  | cons m ns ih => exact pairwise_insertNew ih m

/-- Increasing lists with the same members are the same list. -/
theorem sortedDistinct_congr
    {ms ns : List Int} (same : ∀ n, n ∈ ms ↔ n ∈ ns) :
    sortedDistinct ms = sortedDistinct ns := by
  have distinct (ks : List Int) : (sortedDistinct ks).Nodup :=
    (pairwise_sortedDistinct ks).imp fun less => Int.ne_of_lt less
  apply List.Perm.eq_of_pairwise _ (pairwise_sortedDistinct ms) (pairwise_sortedDistinct ns)
  · rw [List.perm_ext_iff_of_nodup (distinct ms) (distinct ns)]
    intro n
    rw [mem_sortedDistinct, mem_sortedDistinct, same]
  · intro a b _ _ less greater
    exact absurd greater (Int.lt_asymm less)

theorem mem_valuesOf {operator : Operator} {n : Int} {cs : List Condition} :
    n ∈ valuesOf operator cs ↔ (operator, n) ∈ cs := by
  simp [valuesOf]

/-! ## Bounds -/

/-- Whether a condition bounds the numbers on one side. -/
def Condition.isBound (c : Condition) : Bool :=
  c.1.isLower || c.1.isUpper

theorem isSome_lowerBound? (c : Condition) : (lowerBound? c).isSome = c.1.isLower := by
  rcases c with ⟨operator, n⟩
  cases operator <;> rfl

theorem isSome_upperBound? (c : Condition) : (upperBound? c).isSome = c.1.isUpper := by
  rcases c with ⟨operator, n⟩
  cases operator <;> rfl

/-- The least number that a lower bound admits is where the admitted numbers begin. -/
theorem forall_lowerBound?_le {c : Condition} {x : Int} :
    (∀ low, lowerBound? c = some low → low ≤ x) ↔ (c.1.isLower = true → c.1.Holds x c.2) := by
  rcases c with ⟨operator, n⟩
  cases operator with
  | gt =>
    have least : (∀ low, lowerBound? (.gt, n) = some low → low ≤ x) ↔ n + 1 ≤ x := by
      simp [lowerBound?]
    rw [least, Int.add_one_le_iff]
    simp [Operator.isLower, Operator.Holds]
  | gte => simp [lowerBound?, Operator.isLower, Operator.Holds]
  | eq | ne | lt | lte => simp [lowerBound?, Operator.isLower]

theorem forall_le_upperBound? {c : Condition} {x : Int} :
    (∀ high, upperBound? c = some high → x ≤ high) ↔ (c.1.isUpper = true → c.1.Holds x c.2) := by
  rcases c with ⟨operator, n⟩
  cases operator with
  | lt =>
    have greatest : (∀ high, upperBound? (.lt, n) = some high → x ≤ high) ↔ x ≤ n - 1 := by
      simp [upperBound?]
    rw [greatest, Int.le_sub_one_iff]
    simp [Operator.isUpper, Operator.Holds]
  | lte => simp [upperBound?, Operator.isUpper, Operator.Holds]
  | eq | ne | gt | gte => simp [upperBound?, Operator.isUpper]

theorem forall_mem_max?_le {ns : List Int} {x : Int} :
    (∀ low ∈ ns.max?, low ≤ x) ↔ ∀ n ∈ ns, n ≤ x := by
  cases greatest : ns.max? with
  | none =>
    rw [List.max?_eq_none_iff] at greatest
    simp [greatest]
  | some low =>
    rw [← List.max?_le_iff greatest]
    simp

theorem forall_mem_min?_ge {ns : List Int} {x : Int} :
    (∀ high ∈ ns.min?, x ≤ high) ↔ ∀ n ∈ ns, x ≤ n := by
  cases least : ns.min? with
  | none =>
    rw [List.min?_eq_none_iff] at least
    simp [least]
  | some high =>
    rw [← List.le_min?_iff least]
    simp

theorem max?_congr
    {ms ns : List Int} (same : ∀ n, n ∈ ms ↔ n ∈ ns) :
    ms.max? = ns.max? := by
  ext n
  simp only [List.max?_eq_some_iff, same]

theorem min?_congr
    {ms ns : List Int} (same : ∀ n, n ∈ ms ↔ n ∈ ns) :
    ms.min? = ns.min? := by
  ext n
  simp only [List.min?_eq_some_iff, same]

theorem mem_filterMap_congr
    {cs cs' : List Condition} (same : ∀ c, c ∈ cs ↔ c ∈ cs')
    (bound? : Condition → Option Int) (n : Int) :
    n ∈ cs.filterMap bound? ↔ n ∈ cs'.filterMap bound? := by
  simp only [List.mem_filterMap, same]

/-- A number lies between the tightest bounds when it satisfies every bound. -/
theorem between_tightest_iff {cs : List Condition} {x : Int} :
    ((∀ low ∈ (cs.filterMap lowerBound?).max?, low ≤ x) ∧
        ∀ high ∈ (cs.filterMap upperBound?).min?, x ≤ high) ↔
      ∀ c ∈ cs, c.isBound = true → c.1.Holds x c.2 := by
  rw [forall_mem_max?_le, forall_mem_min?_ge, List.forall_mem_filterMap,
    List.forall_mem_filterMap, ← forall₂_and]
  apply forall₂_congr
  intro c _
  rw [forall_lowerBound?_le, forall_le_upperBound?, Condition.isBound, Bool.or_eq_true, or_imp]

theorem filterMap_bounds_isEmpty_iff {cs : List Condition} :
    ((cs.filterMap lowerBound?).isEmpty && (cs.filterMap upperBound?).isEmpty) = true ↔
      ∀ c ∈ cs, c.isBound = false := by
  rw [Bool.and_eq_true, List.isEmpty_iff, List.isEmpty_iff, List.filterMap_eq_nil_iff,
    List.filterMap_eq_nil_iff, ← forall₂_and]
  apply forall₂_congr
  intro c _
  rw [Condition.isBound, ← isSome_lowerBound?, ← isSome_upperBound?, Bool.or_eq_false_iff,
    Option.isSome_eq_false_iff, Option.isSome_eq_false_iff, Option.isNone_iff_eq_none,
    Option.isNone_iff_eq_none]

/-! ## The interval -/

/-- The value of a bound that may be missing. -/
def boundValue : Option Int → Value
  | none => .null
  | some n => .int n

/-- The interval between two bounds, as every choice of options leaves it. -/
def between : Option Int → Option Int → Interval
  | some low, some high => if high < low then .none else .closed (.int low) (.int high)
  | low, high => .make (boundValue low) (boundValue high) true true false

theorem between_of_rangeOf
    {validate : Bool} {widest : Int} {low high : Option Int} {range : Interval}
    (made : rangeOf validate widest low high = .ok range) :
    range = between low high := by
  cases low with
  | none =>
    cases high with
    | none =>
      cases made
      rfl
    | some high =>
      cases made
      rfl
  | some low =>
    cases high with
    | none =>
      cases made
      rfl
    | some high =>
      rw [rangeOf] at made
      rw [between]
      split at made
      · next inverted =>
        rw [if_pos inverted]
        cases validate with
        | true => cases made
        | false =>
          cases made
          rfl
      · next proper =>
        rw [if_neg proper]
        split at made
        · rcases bind_eq_ok.mp made with ⟨days, -, impossible⟩
          cases impossible
        · cases made
          rfl

theorem isBound_boundValue (bound : Option Int) : (boundValue bound).IsBound bound := by
  cases bound <;> rfl

theorem contains_make (low high : Option Int) (x : Int) :
    (Interval.make (boundValue low) (boundValue high) true true false).contains (.int x) =
      .ok (decide ((∀ l ∈ low, l ≤ x) ∧ ∀ h ∈ high, x ≤ h)) := by
  rw [Interval.contains_of_bounds rfl (isBound_boundValue low) (isBound_boundValue high)]
  -- A bound that is there belongs to the interval.
  cases low <;> cases high <;> simp [Interval.make, boundValue, Value.isNull]

theorem contains_between (low high : Option Int) (x : Int) :
    (between low high).contains (.int x) =
      .ok (decide ((∀ l ∈ low, l ≤ x) ∧ ∀ h ∈ high, x ≤ h)) := by
  cases low with
  | none => exact contains_make none high x
  | some low =>
    cases high with
    | none => exact contains_make (some low) none x
    | some high =>
      rw [between]
      split
      · next inverted =>
        -- Between inverted bounds there is nothing, as in the interval declared empty.
        have nothing : ¬((∀ l ∈ some low, l ≤ x) ∧ ∀ h ∈ some high, x ≤ h) := by
          simp only [Option.mem_def, Option.some.injEq, forall_eq']
          omega
        exact congrArg Except.ok (decide_eq_false nothing).symm
      · exact contains_make (some low) (some high) x

/-- The range of conditions, as every choice of options leaves it. -/
def rangeBetween (cs : List Condition) : Option Interval :=
  if ∀ c ∈ cs, c.isBound = false then none
  else some (between (cs.filterMap lowerBound?).max? (cs.filterMap upperBound?).min?)

theorem rangeBetween_of_mergedRange
    {options : Options} {cs : List Condition} {range : Option Interval}
    (made : mergedRange options cs = .ok range) :
    range = rangeBetween cs := by
  rw [mergedRange] at made
  rw [rangeBetween]
  split at made
  · next boundless =>
    rw [if_pos (filterMap_bounds_isEmpty_iff.mp boundless)]
    cases made
    rfl
  · next bounded =>
    rw [if_neg fun boundless => bounded (filterMap_bounds_isEmpty_iff.mpr boundless)]
    split at made
    · cases made
    · rcases map_eq_ok.mp made with ⟨interval, outcome, rfl⟩
      rw [between_of_rangeOf outcome]

/-! ## The meaning of the result -/

/-- What conditions are merged into, as every choice of options leaves it. -/
def summary (cs : List Condition) : Merged :=
  ⟨rangeBetween cs, sortedDistinct (valuesOf .eq cs), sortedDistinct (valuesOf .ne cs)⟩

theorem eq_summary_of_mergedOf
    {options : Options} {cs : List Condition} {merged : Merged}
    (done : mergedOf options cs = .ok merged) :
    merged = summary cs := by
  rcases bind_eq_ok.mp done with ⟨_, -, done⟩
  rcases map_eq_ok.mp done with ⟨range, made, rfl⟩
  rw [rangeBetween_of_mergedRange made]
  rfl

theorem eq_summary_of_merge
    {filters : List Filter} {cs : List Condition}
    (read : List.Forall₂ Filter.Reads filters cs)
    {options : Options} {merged : Merged}
    (done : (merge options filters).result = .ok merged) :
    merged = summary cs := by
  rw [result_merge read] at done
  split at done
  · cases done
  · exact eq_summary_of_mergedOf done

theorem range_summary_eq_none_iff {cs : List Condition} :
    (summary cs).range = none ↔ ∀ c ∈ cs, c.isBound = false := by
  rw [summary, rangeBetween]
  split
  · next boundless => exact iff_of_true rfl boundless
  · next bounded => exact iff_of_false (Option.some_ne_none _) bounded

theorem contains_range_summary
    {cs : List Condition} {range : Interval} (isRange : (summary cs).range = some range) (x : Int) :
    range.contains (.int x) =
      .ok (decide (∀ c ∈ cs, c.isBound = true → c.1.Holds x c.2)) := by
  rw [summary, rangeBetween] at isRange
  split at isRange
  · cases isRange
  · cases isRange
    rw [contains_between]
    exact congrArg Except.ok (decide_eq_decide.mpr between_tightest_iff)

/-- The result depends on the set of the conditions only. -/
theorem summary_congr
    {cs cs' : List Condition} (same : ∀ c, c ∈ cs ↔ c ∈ cs') :
    summary cs = summary cs' := by
  have bounds : rangeBetween cs = rangeBetween cs' := by
    rw [rangeBetween, rangeBetween, max?_congr fun n => mem_filterMap_congr same lowerBound? n,
      min?_congr fun n => mem_filterMap_congr same upperBound? n]
    simp only [same]
  have values (operator : Operator) :
      sortedDistinct (valuesOf operator cs) = sortedDistinct (valuesOf operator cs') := by
    apply sortedDistinct_congr
    intro n
    rw [mem_valuesOf, mem_valuesOf, same]
  rw [summary, summary, bounds, values .eq, values .ne]

/--
What a successful merge says, for filters that are read as conditions.  There is
a range exactly when some condition bounds the numbers, and a number lies in it
exactly when it satisfies all these conditions.  The values to match and not to
match are increasing and are those of the equalities and the exclusions.  Any
other filters with the same conditions, in any order and number and under any
options, come to the same result as long as they come to one.
-/
theorem meaning_of_merge
    {filters : List Filter} {cs : List Condition}
    (read : List.Forall₂ Filter.Reads filters cs)
    {options : Options} {merged : Merged}
    (done : (merge options filters).result = .ok merged) :
    (merged.range = none ↔ ∀ c ∈ cs, c.isBound = false) ∧
      (∀ range, merged.range = some range → ∀ x : Int, range.contains (.int x) =
        .ok (decide (∀ c ∈ cs, c.isBound = true → c.1.Holds x c.2))) ∧
      (merged.eqs.Pairwise (· < ·) ∧ ∀ n, n ∈ merged.eqs ↔ (.eq, n) ∈ cs) ∧
      (merged.nes.Pairwise (· < ·) ∧ ∀ n, n ∈ merged.nes ↔ (.ne, n) ∈ cs) ∧
      ∀ (others : List Filter) (cs' : List Condition) (options' : Options) (merged' : Merged),
        List.Forall₂ Filter.Reads others cs' → (∀ c, c ∈ cs ↔ c ∈ cs') →
          (merge options' others).result = .ok merged' → merged' = merged := by
  have isSummary := eq_summary_of_merge read done
  subst isSummary
  refine ⟨range_summary_eq_none_iff, fun _ => contains_range_summary,
    ⟨pairwise_sortedDistinct _, ?_⟩, ⟨pairwise_sortedDistinct _, ?_⟩, ?_⟩
  · intro n
    exact mem_sortedDistinct.trans mem_valuesOf
  · intro n
    exact mem_sortedDistinct.trans mem_valuesOf
  · intro others cs' options' merged' readOthers same doneOthers
    rw [eq_summary_of_merge readOthers doneOthers, summary_congr same]

/-- Above one and up to five, without three. -/
theorem meaning_of_merge_closed :
    let filters : List Filter :=
      [⟨"timestamp", "gt", .int 1⟩, ⟨"timestamp", "ne", .int 3⟩, ⟨"timestamp", "lte", .text "5"⟩]
    let cs : List Condition := [(.gt, 1), (.ne, 3), (.lte, 5)]
    List.Forall₂ Filter.Reads filters cs ∧
      (merge { allowNe := true } filters).result =
        .ok ⟨some (.closed (.int 2) (.int 5)), [], [3]⟩ ∧
      (∀ x : Int, (Interval.closed (.int 2) (.int 5)).contains (.int x) =
        .ok (decide (∀ c ∈ cs, c.isBound = true → c.1.Holds x c.2))) ∧
      ∀ n, n ∈ [3] ↔ (.ne, n) ∈ cs := by
  intro filters cs
  have read : List.Forall₂ Filter.Reads filters cs :=
    .cons ⟨rfl, rfl⟩ (.cons ⟨rfl, rfl⟩ (.cons ⟨rfl, rfl⟩ .nil))
  have done : (merge { allowNe := true } filters).result =
      .ok ⟨some (.closed (.int 2) (.int 5)), [], [3]⟩ := rfl
  rcases meaning_of_merge read done with ⟨-, inside, -, ⟨-, excluded⟩, -⟩
  exact ⟨read, done, inside _ rfl, excluded⟩

end LedgerQuery.Timestamp
