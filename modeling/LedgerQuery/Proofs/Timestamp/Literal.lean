import LedgerQuery.Proofs.Interval.Literal
import LedgerQuery.Proofs.Timestamp.RangeColumn

/-!
# Range literals of timestamp filters

Intervals leave the timestamp filters in two places: merging makes one of all
filters, and the conditions on a range column have one for each.  Neither has
bounds out of order, and the merged range is declared empty where the filters
contradict each other.  So the literal of such an interval says of every whole
number whether the interval contains it, as far as its bounds can be written as
numbers.
-/

namespace LedgerQuery.Timestamp

/-! ## Merging -/

theorem isOrdered_between {low high : Option Int} (ordered : ∀ l ∈ low, ∀ h ∈ high, l ≤ h) :
    (between low high).IsOrdered low high := by
  cases low with
  | none => exact ⟨rfl, rfl, isBound_boundValue high, ordered⟩
  | some low =>
    cases high with
    | none => exact ⟨rfl, rfl, rfl, ordered⟩
    | some high =>
      rw [between, if_neg (Int.not_lt.mpr (ordered low rfl high rfl))]
      exact ⟨rfl, rfl, rfl, ordered⟩

/-- Bounds out of order leave the interval that is declared empty. -/
theorem between_of_not_ordered {low high : Option Int}
    (inverted : ¬∀ l ∈ low, ∀ h ∈ high, l ≤ h) :
    between low high = .none := by
  simp only [not_forall, Int.not_le] at inverted
  rcases inverted with ⟨l, rfl, h, rfl, less⟩
  rw [between, if_pos less]

theorem isDenoted_between_iff (low high : Option Int) :
    (between low high).IsDenoted ↔ (between low high).HasDecimalBounds := by
  by_cases ordered : ∀ l ∈ low, ∀ h ∈ high, l ≤ h
  · exact (isOrdered_between ordered).isDenoted_iff
  · rw [between_of_not_ordered ordered]
    exact iff_of_true Interval.isDenoted_none Interval.hasDecimalBounds_none

/-- The range of merged filters lies between two bounds, whatever the filters are. -/
theorem exists_between_of_merge
    {options : Options} {filters : List Filter} {merged : Merged} {range : Interval}
    (done : (merge options filters).result = .ok merged) (isRange : merged.range = some range) :
    ∃ low high, range = between low high := by
  rw [merge] at done
  split at done
  · split at done
    · cases done
    · cases done
      cases isRange
  · simp only [Traced.result_bind, bind_eq_ok, Traced.result_lift, Traced.result_pure,
      Except.ok.injEq] at done
    rcases done with ⟨cs, -, _, -, made, merges, rfl⟩
    have bounds : some range = rangeBetween cs :=
      isRange.symm.trans (rangeBetween_of_mergedRange merges)
    rw [rangeBetween] at bounds
    split at bounds
    · cases bounds
    · exact ⟨_, _, Option.some.inj bounds⟩

/-! ## Conditions on a range column -/

theorem isOrdered_rangeParam
    {value : Value} {n : Int} (whole : value.integer = .ok n) (operator : Operator) :
    ∃ low high, (rangeParam value operator).IsOrdered low high := by
  cases operator with
  | eq | lt | lte => exact ⟨none, some n, rfl, rfl, whole, nofun⟩
  | gt | gte => exact ⟨some n, none, rfl, whole, rfl, nofun⟩
  | ne => exact ⟨some n, some n, rfl, whole, whole, by simp⟩

/-- Each interval of the conditions is that of a filter on the timestamp. -/
theorem exists_rangeParam
    {column : String} {filters : List Filter} {made : RangeConditions}
    (done : (rangeConditions column filters).result = .ok made) {param : Interval}
    (member : param ∈ made.params) :
    ∃ f ∈ timestampFilters filters, ∃ operator, param = rangeParam f.value operator := by
  induction filters generalizing made with
  | nil =>
    cases done
    cases member
  | cons f filters ih =>
    rw [rangeConditions] at done
    split at done
    · next onTimestamp =>
      simp only [Traced.result_bind, bind_eq_ok, Traced.result_pure, Except.ok.injEq] at done
      rcases done with ⟨operator, -, more, others, rfl⟩
      rw [timestampFilters_cons_of_key onTimestamp]
      rcases List.mem_cons.mp member with rfl | member
      · exact ⟨f, List.mem_cons_self, operator, rfl⟩
      · rcases ih others member with ⟨g, among, isParam⟩
        exact ⟨g, List.mem_cons_of_mem f among, isParam⟩
    · next other =>
      rw [timestampFilters_cons_of_other other]
      exact ih done member

/-! ## Both places -/

/--
What the literals of the intervals say.  The literal of the range that merging
leaves can be written and read and holds the very numbers that the interval
contains, exactly when the bounds that are there are numbers of not too many
digits.  The same holds of every interval of the conditions on a range column
where the filters on the timestamp have whole numbers as values.
-/
theorem isDenoted_iff_hasDecimalBounds (filters : List Filter) :
    (∀ (options : Options) (merged : Merged) (range : Interval),
        (merge options filters).result = .ok merged → merged.range = some range →
          (range.IsDenoted ↔ range.HasDecimalBounds)) ∧
      ((∀ f ∈ timestampFilters filters, ∃ n, f.value.integer = .ok n) →
        ∀ (column : String) (made : RangeConditions),
          (rangeConditions column filters).result = .ok made →
            ∀ param ∈ made.params, (param.IsDenoted ↔ param.HasDecimalBounds)) := by
  constructor
  · intro options merged range done isRange
    rcases exists_between_of_merge done isRange with ⟨low, high, rfl⟩
    exact isDenoted_between_iff low high
  · intro whole column made done param member
    rcases exists_rangeParam done member with ⟨f, among, operator, rfl⟩
    rcases whole f among with ⟨n, isWhole⟩
    rcases isOrdered_rangeParam isWhole operator with ⟨low, high, ordered⟩
    exact ordered.isDenoted_iff

/-- Above minus eight and up to five, and from a text on. -/
theorem isDenoted_iff_hasDecimalBounds_strict :
    let filters : List Filter := [⟨"timestamp", "gt", .int (-8)⟩, ⟨"timestamp", "lte", .int 5⟩]
    let range : Interval := .closed (.int (-7)) (.int 5)
    let param : Interval := .make (.int (-8)) .null false false false
    let opening : List Filter := [⟨"timestamp", "gte", .text "5"⟩]
    let opened : Interval := .make (.int 5) .null true false false
    (∀ f ∈ timestampFilters filters, ∃ n, f.value.integer = .ok n) ∧
      (merge {} filters).result = .ok ⟨some range, [], []⟩ ∧
      range.text = .ok "[-7,5]" ∧ range.IsDenoted ∧
      param.text = .ok "(-8,)" ∧ param.IsDenoted ∧
      (merge { allowOpenRange := true } opening).result = .ok ⟨some opened, [], []⟩ ∧
      opened.IsDenoted := by
  intro filters range param opening opened
  have whole : ∀ f ∈ timestampFilters filters, ∃ n, f.value.integer = .ok n := by
    intro f among
    have member : f ∈ filters := List.mem_of_mem_filter among
    rcases List.mem_cons.mp member with rfl | member
    · exact ⟨-8, rfl⟩
    · cases List.mem_singleton.mp member
      exact ⟨5, rfl⟩
  have merged : (merge {} filters).result = .ok ⟨some range, [], []⟩ := rfl
  have ten {k : Nat} (positive : k ≠ 0) : 10 ≤ Nat.pow 10 k := Nat.le_self_pow positive 10
  have few {n : Int} (small : n.natAbs < 10) : (Value.int n).IsDecimal :=
    Value.isDecimal_int_iff.mpr (small.trans_le (ten (by decide)))
  have denoted : range.IsDenoted :=
    ((isDenoted_iff_hasDecimalBounds filters).1 {} _ range merged rfl).mpr
      ⟨few (by decide), few (by decide)⟩
  have denotedParam : param.IsDenoted :=
    ((isDenoted_iff_hasDecimalBounds filters).2 whole "span" _ rfl param List.mem_cons_self).mpr
      ⟨few (by decide), .inl rfl⟩
  have written : range.text = .ok "[-7,5]" :=
    (Interval.text_eq_ok_iff rfl).mpr
      ⟨⟨(few (by decide)).isShowable, (few (by decide)).isShowable⟩, rfl⟩
  have writtenParam : param.text = .ok "(-8,)" :=
    (Interval.text_eq_ok_iff rfl).mpr
      ⟨⟨(few (by decide)).isShowable, Value.isShowable_null⟩, rfl⟩
  have begun : (merge { allowOpenRange := true } opening).result = .ok ⟨some opened, [], []⟩ :=
    rfl
  have denotedOpened : opened.IsDenoted :=
    ((isDenoted_iff_hasDecimalBounds opening).1 _ _ opened begun rfl).mpr
      ⟨few (by decide), .inl rfl⟩
  exact ⟨whole, merged, written, denoted, writtenParam, denotedParam, begun, denotedOpened⟩

/-- A strict bound may step to a number of too many digits, and a truth value is a bound on a range
column as it is. -/
theorem isDenoted_refuted :
    let options : Options := { allowOpenRange := true }
    let range : Interval := .make (.int (10 ^ digitLimit)) .null true false false
    let param : Interval := .make (.bool true) .null true false false
    ((merge options [⟨"timestamp", "gt", .int (10 ^ digitLimit - 1)⟩]).result =
        .ok ⟨some range, [], []⟩ ∧ ¬range.IsDenoted) ∧
      (rangeConditions "span" [⟨"timestamp", "gte", .bool true⟩]).result =
        .ok ⟨["span && ?"], [param]⟩ ∧ ¬param.IsDenoted := by
  intro options range param
  have stepped (n : Int) : (merge options [⟨"timestamp", "gt", .int n⟩]).result =
      .ok ⟨some (.make (.int (n + 1)) .null true false false), [], []⟩ := rfl
  have merged := stepped (10 ^ digitLimit - 1)
  rw [Int.sub_add_cancel] at merged
  have ordered (n : Int) :
      (Interval.make (.int n) .null true false false).IsOrdered (some n) none :=
    ⟨rfl, rfl, rfl, nofun⟩
  have orderedParam : param.IsOrdered (some 1) none := ⟨rfl, rfl, rfl, nofun⟩
  refine ⟨⟨merged, ?_⟩, rfl, ?_⟩
  · rw [(ordered _).isDenoted_iff]
    rintro ⟨few, -⟩
    have magnitude (k : Nat) : (10 ^ k : Int).natAbs = Nat.pow 10 k := by
      rw [Int.natAbs_pow]
      rfl
    have less := Value.isDecimal_int_iff.mp few
    rw [magnitude] at less
    exact Nat.lt_irrefl _ less
  · rw [orderedParam.isDenoted_iff]
    rintro ⟨impossible | ⟨n, impossible, -⟩, -⟩
    · cases impossible
    · cases impossible

end LedgerQuery.Timestamp
