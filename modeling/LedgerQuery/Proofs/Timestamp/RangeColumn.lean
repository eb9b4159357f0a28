import LedgerQuery.Proofs.Timestamp.Acceptance
import LedgerQuery.Timestamp.RangeColumn

/-!
# What conditions on a range column mean

The filters on the timestamp become conditions on a range column, one for each,
with an interval that is open on one side or holds a single value.  These
intervals keep strict bounds as they are, while merging turns them into closed
ones.  Both come to the same numbers: what lies in all intervals of some bounds
is what lies in their merged range.
-/

namespace LedgerQuery.Timestamp

/-! ## One filter -/

/-- The filter has a known operator, and its value is a whole number by its kind. -/
def Filter.States (f : Filter) (c : Condition) : Prop :=
  Operator.ofWord? f.operator = some c.1 ∧ f.value.integer = .ok c.2

theorem Filter.States.reads {f : Filter} {c : Condition} (stated : f.States c) : f.Reads c :=
  ⟨stated.1, Value.toInt_of_integer stated.2⟩

theorem Filter.States.result_checkedOperator
    {f : Filter} {c : Condition} (stated : f.States c) :
    f.checkedOperator.result = .ok c.1 :=
  stated.reads.result_checkedOperator

/-- How the numbers in the interval of a filter are related to its value: an equality stands for
everything up to the value, and an exclusion has the value alone in its interval. -/
def paramRelation : Operator → Operator
  | .eq => .lte
  | .ne => .eq
  | operator => operator

/-- A bound is no equality and no exclusion, so its interval says what the bound says. -/
theorem paramRelation_of_isBound {c : Condition} (bound : c.isBound = true) :
    paramRelation c.1 = c.1 := by
  rcases c with ⟨operator, n⟩
  cases operator with
  | eq | ne => cases bound
  | lt | lte | gt | gte => rfl

theorem contains_rangeParam
    {value : Value} {n : Int} (whole : value.integer = .ok n) (operator : Operator) (x : Int) :
    (rangeParam value operator).contains (.int x) =
      .ok (decide ((paramRelation operator).Holds x n)) := by
  have missing : Value.null.IsBound none := rfl
  have present : value.IsBound (some n) := whole
  have notNull : value.isNull = false := Value.isNull_of_integer whole
  cases operator with
  | eq | lt | lte =>
    rw [rangeParam, Interval.contains_of_bounds rfl missing present]
    apply congrArg Except.ok
    rw [decide_eq_decide]
    simp [Interval.make, notNull, paramRelation, Operator.Holds]
  | gt | gte =>
    rw [rangeParam, Interval.contains_of_bounds rfl present missing]
    apply congrArg Except.ok
    rw [decide_eq_decide]
    simp [Interval.make, notNull, paramRelation, Operator.Holds]
  | ne =>
    rw [rangeParam, Interval.closed, Interval.contains_of_bounds rfl present present]
    apply congrArg Except.ok
    rw [decide_eq_decide]
    simp only [Interval.make, notNull, paramRelation, Operator.Holds, Option.mem_def,
      Option.some.injEq, forall_eq', Bool.not_false, Bool.and_self, if_true]
    omega

/-! ## All filters -/

/-- The filters on the timestamp. -/
def timestampFilters (filters : List Filter) : List Filter :=
  filters.filter fun f => f.key = timestampKey

theorem timestampFilters_cons_of_key {f : Filter} (onTimestamp : f.key = timestampKey)
    (filters : List Filter) :
    timestampFilters (f :: filters) = f :: timestampFilters filters :=
  List.filter_cons_of_pos (decide_eq_true onTimestamp)

theorem timestampFilters_cons_of_other {f : Filter} (other : f.key ≠ timestampKey)
    (filters : List Filter) :
    timestampFilters (f :: filters) = timestampFilters filters :=
  List.filter_cons_of_neg (by simpa using other)

/-- The interval of a condition, for a value that stands for its number. -/
def IsParam (c : Condition) (param : Interval) : Prop :=
  ∃ value : Value, value.integer = .ok c.2 ∧ param = rangeParam value c.1

/-- Each filter on the timestamp gives one condition and one interval, and the others none. -/
theorem exists_rangeConditions
    {filters : List Filter} {cs : List Condition}
    (stated : List.Forall₂ Filter.States (timestampFilters filters) cs) (column : String) :
    ∃ params, (rangeConditions column filters).result =
        .ok ⟨cs.map fun c => rangeCondition column c.1, params⟩ ∧
      List.Forall₂ IsParam cs params := by
  induction filters generalizing cs with
  | nil =>
    cases stated
    exact ⟨[], rfl, .nil⟩
  | cons f filters ih =>
    by_cases onTimestamp : f.key = timestampKey
    · rw [timestampFilters_cons_of_key onTimestamp] at stated
      cases stated with
      | @cons _ c _ cs first others =>
        rcases ih others with ⟨params, made, each⟩
        refine ⟨rangeParam f.value c.1 :: params, ?_, .cons ⟨f.value, first.2, rfl⟩ each⟩
        rw [rangeConditions, if_pos onTimestamp, Traced.result_bind, first.result_checkedOperator,
          ok_bind, Traced.result_bind, made]
        rfl
    · rw [timestampFilters_cons_of_other onTimestamp] at stated
      rcases ih stated with ⟨params, made, each⟩
      refine ⟨params, ?_, each⟩
      rw [rangeConditions, if_neg onTimestamp]
      exact made

theorem IsParam.contains {c : Condition} {param : Interval} (isParam : IsParam c param) (x : Int) :
    param.contains (.int x) = .ok (decide ((paramRelation c.1).Holds x c.2)) := by
  rcases isParam with ⟨value, whole, rfl⟩
  exact contains_rangeParam whole c.1 x

/-- A number lies in all intervals when it is related to the values of all conditions. -/
theorem forall_params_contain_iff
    {cs : List Condition} {params : List Interval} (each : List.Forall₂ IsParam cs params)
    (x : Int) :
    (∀ param ∈ params, param.contains (.int x) = .ok true) ↔
      ∀ c ∈ cs, (paramRelation c.1).Holds x c.2 := by
  induction each with
  | nil => simp
  | cons first _ ih =>
    rw [List.forall_mem_cons, List.forall_mem_cons, ih, first.contains x, Except.ok.injEq,
      decide_eq_true_iff]

/-! ## The merged range -/

/-- Lenient merging of some bounds, and of nothing else, leaves a range that holds what satisfies
all of them. -/
theorem exists_merged_bounds
    {filters : List Filter} {cs : List Condition}
    (read : List.Forall₂ Filter.Reads filters cs)
    (given : cs ≠ []) (bounds : ∀ c ∈ cs, c.isBound = true)
    {options : Options} (relaxed : options.strict = some false)
    (mayBeOpen : options.allowOpenRange = true) (unchecked : options.validateRange = false) :
    ∃ range, (merge options filters).result = .ok ⟨some range, [], []⟩ ∧
      ∀ x : Int, range.contains (.int x) = .ok (decide (∀ c ∈ cs, c.1.Holds x c.2)) := by
  have acceptable : Acceptable options cs :=
    { given := fun _ => given
      simple := fun strict => by
        rw [Options.isStrict, relaxed] at strict
        cases strict
      sided := Or.inl mayBeOpen
      narrow := fun checked => by
        rw [unchecked] at checked
        cases checked }
  rcases (exists_merge_iff_acceptable read _).mpr acceptable with ⟨merged, done⟩
  have isSummary := eq_summary_of_merge read done
  subst isSummary
  have noValues {operator : Operator} (free : ∀ n : Int, Condition.isBound (operator, n) = false) :
      sortedDistinct (valuesOf operator cs) = [] := by
    rw [List.eq_nil_iff_forall_not_mem]
    intro n member
    rw [mem_sortedDistinct, mem_valuesOf] at member
    exact absurd (bounds _ member) (Bool.eq_false_iff.mp (free n))
  cases isRange : (summary cs).range with
  | none =>
    rcases List.exists_mem_of_ne_nil cs given with ⟨c, member⟩
    have free := range_summary_eq_none_iff.mp isRange c member
    rw [bounds c member] at free
    cases free
  | some range =>
    have same : summary cs = ⟨some range, [], []⟩ := by
      rw [← isRange, summary, noValues fun _ => rfl, noValues fun _ => rfl]
    refine ⟨range, same ▸ done, ?_⟩
    intro x
    rw [contains_range_summary isRange]
    apply congrArg Except.ok
    rw [decide_eq_decide]
    exact forall₂_congr fun c member => by simp [bounds c member]

/--
What the conditions on a range column say.  The filters on the timestamp, read
as conditions, give one text and one interval each, in order: an overlap test,
or for an exclusion the negation of a containment test.  A number lies in the
interval of a condition exactly when it stands in the relation of the condition
to its value, where equality is read as an upper bound, and for an exclusion
exactly when it is the value.  Where all filters are bounds on the timestamp, a
number lies in all intervals exactly when it lies in the range that lenient
merging makes of the same filters.
-/
theorem meaning_of_rangeConditions
    {filters : List Filter} {cs : List Condition}
    (stated : List.Forall₂ Filter.States (timestampFilters filters) cs) (column : String) :
    ∃ params,
      (rangeConditions column filters).result =
        .ok ⟨cs.map fun c =>
          if c.1 = .ne then "not " ++ column ++ " @> ?" else column ++ " && ?", params⟩ ∧
      List.Forall₂ (fun (c : Condition) (param : Interval) => ∀ x : Int,
        param.contains (.int x) = .ok (decide
          (if c.1 = .ne then x = c.2 else if c.1 = .eq then x ≤ c.2 else c.1.Holds x c.2)))
        cs params ∧
      (filters ≠ [] → (∀ f ∈ filters, f.key = timestampKey) → (∀ c ∈ cs, c.isBound = true) →
        ∀ options : Options, options.strict = some false → options.allowOpenRange = true →
          options.validateRange = false →
            ∃ range, (merge options filters).result = .ok ⟨some range, [], []⟩ ∧
              ∀ x : Int, (∀ param ∈ params, param.contains (.int x) = .ok true) ↔
                range.contains (.int x) = .ok true) := by
  rcases exists_rangeConditions stated column with ⟨params, made, each⟩
  refine ⟨params, ?_, ?_, ?_⟩
  · rw [made]
    apply congrArg fun texts => Except.ok (RangeConditions.mk texts params)
    apply List.map_congr_left
    rintro ⟨operator, n⟩ -
    cases operator <;> rfl
  · apply each.imp
    rintro ⟨operator, n⟩ param isParam x
    rw [isParam.contains]
    cases operator <;> rfl
  · intro given onTimestamp bounds options relaxed mayBeOpen unchecked
    have all : timestampFilters filters = filters :=
      List.filter_eq_self.mpr fun f member => decide_eq_true (onTimestamp f member)
    rw [all] at stated
    have read : List.Forall₂ Filter.Reads filters cs := stated.imp fun _ _ => Filter.States.reads
    have some : cs ≠ [] := by
      rintro rfl
      cases stated
      exact given rfl
    rcases exists_merged_bounds read some bounds relaxed mayBeOpen unchecked with
      ⟨range, done, inside⟩
    refine ⟨range, done, ?_⟩
    intro x
    rw [forall_params_contain_iff each, inside, Except.ok.injEq, decide_eq_true_iff]
    exact forall₂_congr fun c member => by rw [paramRelation_of_isBound (bounds c member)]

/-- Above five and up to five: the merged range is declared empty, and no number lies in all
intervals. -/
theorem meaning_of_rangeConditions_contradictory :
    let filters : List Filter :=
      [⟨"timestamp", "gt", .int 5⟩, ⟨"timestamp", "lt", .int 9⟩, ⟨"timestamp", "lte", .int 5⟩]
    let cs : List Condition := [(.gt, 5), (.lt, 9), (.lte, 5)]
    let params : List Interval :=
      [.make (.int 5) .null false false false, .make .null (.int 9) false false false,
        .make .null (.int 5) false true false]
    let options : Options :=
      { strict := some false, allowOpenRange := true, validateRange := false }
    List.Forall₂ Filter.States (timestampFilters filters) cs ∧
      (rangeConditions "span" filters).result =
        .ok ⟨["span && ?", "span && ?", "span && ?"], params⟩ ∧
      (merge options filters).result = .ok ⟨some .none, [], []⟩ ∧
      ∀ x : Int, (∀ param ∈ params, param.contains (.int x) = .ok true) ↔
        Interval.none.contains (.int x) = .ok true := by
  intro filters cs params options
  have stated : List.Forall₂ Filter.States (timestampFilters filters) cs :=
    .cons ⟨rfl, rfl⟩ (.cons ⟨rfl, rfl⟩ (.cons ⟨rfl, rfl⟩ .nil))
  have made : (rangeConditions "span" filters).result =
      .ok ⟨["span && ?", "span && ?", "span && ?"], params⟩ := rfl
  have merged : (merge options filters).result = .ok ⟨some .none, [], []⟩ := rfl
  rcases meaning_of_rangeConditions stated "span" with ⟨params', made', -, agree⟩
  cases made.symm.trans made'
  rcases agree (by decide) (by decide) (by decide) options rfl rfl rfl with ⟨range, done, inside⟩
  cases merged.symm.trans done
  exact ⟨stated, made, merged, inside⟩

/-- Filters on other keys are passed over, and an exclusion is negated. -/
example :
    (rangeConditions "span"
        [⟨"account.id", "like", .null⟩, ⟨"timestamp", "ne", .int 3⟩,
          ⟨"timestamp", "eq", .int 4⟩]).result =
      .ok ⟨["not span @> ?", "span && ?"],
        [.closed (.int 3) (.int 3), .make .null (.int 4) false true false]⟩ := by
  rfl

end LedgerQuery.Timestamp
