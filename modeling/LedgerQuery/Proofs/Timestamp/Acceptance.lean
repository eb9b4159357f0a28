import LedgerQuery.Field.Integer
import LedgerQuery.Proofs.Numeral.Quotient
import LedgerQuery.Proofs.Timestamp.Merge
import Mathlib

/-!
# Which filters are accepted

The ends of a merged range are the greatest least number that a lower bound
admits and the least greatest one that an upper bound admits.  The conditions
for acceptance are stated about these ends and about how often each kind of
condition occurs.  Filters are merged exactly when they are acceptable, and
otherwise the fault says what is wrong with the range: the width of the widest
allowed range can always be written in days.
-/

namespace LedgerQuery.Timestamp

/-! ## Acceptable conditions -/

/-- The least numbers that the lower bounds admit. -/
def lowerEnds (cs : List Condition) : Set Int :=
  {low | ∃ n, (.gt, n) ∈ cs ∧ low = n + 1 ∨ (.gte, n) ∈ cs ∧ low = n}

/-- The greatest numbers that the upper bounds admit. -/
def upperEnds (cs : List Condition) : Set Int :=
  {high | ∃ n, (.lt, n) ∈ cs ∧ high = n - 1 ∨ (.lte, n) ∈ cs ∧ high = n}

/-- Conditions that go together under strict checking. -/
structure IsSimple (allowNe : Bool) (cs : List Condition) : Prop where
  exclusion : ∀ n, (.ne, n) ∈ cs → allowNe = true
  lower : (cs.countP fun c => c.1.isLower) ≤ 1
  upper : (cs.countP fun c => c.1.isUpper) ≤ 1
  equality : ∀ n, (.eq, n) ∈ cs → ∀ c ∈ cs, c.1 = .eq

/-- Conditions that the options accept. -/
structure Acceptable (options : Options) (cs : List Condition) : Prop where
  given : options.required = true → cs ≠ []
  simple : options.isStrict = true → IsSimple options.allowNe cs
  sided : options.allowOpenRange = true ∨
    ((∃ c ∈ cs, c.1.isLower = true) ↔ ∃ c ∈ cs, c.1.isUpper = true)
  narrow : options.validateRange = true → ∀ low high : Int,
    IsGreatest (lowerEnds cs) low → IsLeast (upperEnds cs) high →
      low ≤ high ∧ ((Finset.Icc low high).card : Int) ≤ options.config.maxTimestampRange

/-! ## The ends of the range -/

theorem mem_lowerEnds {cs : List Condition} {low : Int} :
    low ∈ lowerEnds cs ↔ low ∈ cs.filterMap lowerBound? := by
  rw [List.mem_filterMap]
  constructor
  · rintro ⟨n, ⟨member, rfl⟩ | ⟨member, rfl⟩⟩
    · exact ⟨(.gt, n), member, rfl⟩
    · exact ⟨(.gte, low), member, rfl⟩
  · rintro ⟨⟨operator, n⟩, member, bound⟩
    cases operator <;> simp only [lowerBound?, Option.some.injEq, reduceCtorEq] at bound
    case gt => exact ⟨n, Or.inl ⟨member, bound.symm⟩⟩
    case gte => exact ⟨n, Or.inr ⟨member, bound.symm⟩⟩

theorem mem_upperEnds {cs : List Condition} {high : Int} :
    high ∈ upperEnds cs ↔ high ∈ cs.filterMap upperBound? := by
  rw [List.mem_filterMap]
  constructor
  · rintro ⟨n, ⟨member, rfl⟩ | ⟨member, rfl⟩⟩
    · exact ⟨(.lt, n), member, rfl⟩
    · exact ⟨(.lte, high), member, rfl⟩
  · rintro ⟨⟨operator, n⟩, member, bound⟩
    cases operator <;> simp only [upperBound?, Option.some.injEq, reduceCtorEq] at bound
    case lt => exact ⟨n, Or.inl ⟨member, bound.symm⟩⟩
    case lte => exact ⟨n, Or.inr ⟨member, bound.symm⟩⟩

theorem max?_lowerBounds_eq_some_iff {cs : List Condition} {low : Int} :
    (cs.filterMap lowerBound?).max? = some low ↔ IsGreatest (lowerEnds cs) low := by
  rw [List.max?_eq_some_iff, IsGreatest, mem_lowerEnds, mem_upperBounds]
  simp only [mem_lowerEnds]

theorem min?_upperBounds_eq_some_iff {cs : List Condition} {high : Int} :
    (cs.filterMap upperBound?).min? = some high ↔ IsLeast (upperEnds cs) high := by
  rw [List.min?_eq_some_iff, IsLeast, mem_upperEnds, mem_lowerBounds]
  simp only [mem_upperEnds]

theorem isEmpty_bounds_eq_false_iff
    (cs : List Condition) (bound? : Condition → Option Int) :
    (cs.filterMap bound?).isEmpty = false ↔ ∃ c ∈ cs, (bound? c).isSome = true := by
  rw [List.isEmpty_eq_false_iff_exists_mem]
  simp only [List.mem_filterMap, Option.isSome_iff_exists]
  constructor
  · rintro ⟨n, c, member, bound⟩
    exact ⟨c, member, n, bound⟩
  · rintro ⟨c, member, n, bound⟩
    exact ⟨n, c, member, bound⟩

/-- There are bounds on both sides or on neither. -/
theorem isEmpty_bounds_eq_iff {cs : List Condition} :
    (cs.filterMap lowerBound?).isEmpty = (cs.filterMap upperBound?).isEmpty ↔
      ((∃ c ∈ cs, c.1.isLower = true) ↔ ∃ c ∈ cs, c.1.isUpper = true) := by
  have lower := isEmpty_bounds_eq_false_iff cs lowerBound?
  have upper := isEmpty_bounds_eq_false_iff cs upperBound?
  simp only [isSome_lowerBound?, isSome_upperBound?] at lower upper
  rw [← lower, ← upper]
  cases (cs.filterMap lowerBound?).isEmpty <;> cases (cs.filterMap upperBound?).isEmpty <;> simp

/-! ## Strict checking -/

theorem valuesOf_isEmpty_eq_false_iff {operator : Operator} {cs : List Condition} :
    (valuesOf operator cs).isEmpty = false ↔ ∃ n, (operator, n) ∈ cs := by
  rw [List.isEmpty_eq_false_iff_exists_mem]
  simp only [mem_valuesOf]

theorem length_lowerBounds (cs : List Condition) :
    (cs.filterMap lowerBound?).length = cs.countP fun c => c.1.isLower := by
  rw [List.length_filterMap_eq_countP]
  simp only [isSome_lowerBound?]

theorem length_upperBounds (cs : List Condition) :
    (cs.filterMap upperBound?).length = cs.countP fun c => c.1.isUpper := by
  rw [List.length_filterMap_eq_countP]
  simp only [isSome_upperBound?]

/-- Equalities only are left when there are neither bounds nor exclusions. -/
theorem forall_eq_iff {cs : List Condition} :
    (((cs.filterMap lowerBound?).isEmpty && (cs.filterMap upperBound?).isEmpty &&
      (valuesOf .ne cs).isEmpty) = true) ↔ ∀ c ∈ cs, c.1 = .eq := by
  rw [Bool.and_eq_true, filterMap_bounds_isEmpty_iff, ← Bool.not_eq_false,
    valuesOf_isEmpty_eq_false_iff]
  constructor
  · rintro ⟨boundless, inclusive⟩ ⟨operator, n⟩ member
    have free := boundless _ member
    cases operator
    case eq => rfl
    case ne => exact absurd ⟨n, member⟩ inclusive
    all_goals cases free
  · intro equalities
    constructor
    · rintro ⟨operator, n⟩ member
      cases equalities _ member
      rfl
    · rintro ⟨n, member⟩
      cases equalities _ member

theorem strictFault?_eq_none_iff {allowNe : Bool} {cs : List Condition} :
    strictFault? allowNe cs = none ↔ IsSimple allowNe cs := by
  have exclusion : ¬(!(valuesOf .ne cs).isEmpty && !allowNe) = true ↔
      ∀ n, (.ne, n) ∈ cs → allowNe = true := by
    rw [Bool.and_eq_true, Bool.not_eq_true', Bool.not_eq_true', valuesOf_isEmpty_eq_false_iff,
      not_and, Bool.not_eq_false, forall_exists_index]
  have equality : ¬(!(valuesOf .eq cs).isEmpty && !((cs.filterMap lowerBound?).isEmpty &&
      (cs.filterMap upperBound?).isEmpty && (valuesOf .ne cs).isEmpty)) = true ↔
      ∀ n, (.eq, n) ∈ cs → ∀ c ∈ cs, c.1 = .eq := by
    rw [Bool.and_eq_true, Bool.not_eq_true', Bool.not_eq_true', valuesOf_isEmpty_eq_false_iff,
      not_and, Bool.not_eq_false, forall_eq_iff, forall_exists_index]
  rw [strictFault?, length_lowerBounds, length_upperBounds]
  constructor
  · intro unfaulted
    split_ifs at unfaulted with excluded lower upper mixed
    exact ⟨exclusion.mp excluded, Nat.not_lt.mp lower, Nat.not_lt.mp upper, equality.mp mixed⟩
  · intro simple
    rw [if_neg (exclusion.mpr simple.exclusion), if_neg (Nat.not_lt.mpr simple.lower),
      if_neg (Nat.not_lt.mpr simple.upper), if_neg (equality.mpr simple.equality)]

/-! ## Success -/

theorem result_checkStrict_eq_ok_iff {options : Options} {cs : List Condition} :
    (checkStrict options cs).result = .ok () ↔
      (options.isStrict = true → IsSimple options.allowNe cs) := by
  rw [checkStrict, ← strictFault?_eq_none_iff]
  cases options.isStrict with
  | false => exact iff_of_true rfl fun impossible => absurd impossible Bool.false_ne_true
  | true =>
    rw [if_pos rfl]
    cases strictFault? options.allowNe cs with
    | none => exact iff_of_true rfl fun _ => rfl
    | some cause =>
      apply iff_of_false
      · intro impossible
        cases impossible
      · intro simple
        cases simple rfl

theorem exists_rangeOf_unchecked (widest : Int) (low high : Option Int) :
    ∃ range, rangeOf false widest low high = .ok range := by
  cases low with
  | none => cases high <;> exact ⟨_, rfl⟩
  | some l =>
    cases high with
    | none => exact ⟨_, rfl⟩
    | some h =>
      rw [rangeOf]
      split <;> exact ⟨_, rfl⟩

/-- Between two bounds a range is made when it is neither inverted nor too wide. -/
theorem exists_rangeOf_checked_iff {widest l h : Int} :
    (∃ range, rangeOf true widest (some l) (some h) = .ok range) ↔
      l ≤ h ∧ h - l + 1 ≤ widest := by
  rw [rangeOf, Bool.true_and, if_pos rfl]
  split
  · next inverted =>
    apply iff_of_false
    · rintro ⟨range, impossible⟩
      cases impossible
    · omega
  · next proper =>
    split
    · next wide =>
      have wider := of_decide_eq_true wide
      apply iff_of_false
      · rintro ⟨range, made⟩
        rcases bind_eq_ok.mp made with ⟨days, -, impossible⟩
        cases impossible
      · omega
    · next fits =>
      rw [decide_eq_true_eq] at fits
      apply iff_of_true ⟨_, rfl⟩
      omega

theorem exists_rangeOf_iff {validate : Bool} {widest : Int} {low high : Option Int} :
    (∃ range, rangeOf validate widest low high = .ok range) ↔
      (validate = true → ∀ l h, low = some l → high = some h → l ≤ h ∧ h - l + 1 ≤ widest) := by
  cases validate with
  | false =>
    apply iff_of_true (exists_rangeOf_unchecked widest low high)
    intro impossible
    cases impossible
  | true =>
    cases low with
    | none =>
      apply iff_of_true
      · cases high <;> exact ⟨_, rfl⟩
      · intro _ l h impossible
        cases impossible
    | some l =>
      cases high with
      | none =>
        apply iff_of_true ⟨_, rfl⟩
        intro _ _ h _ impossible
        cases impossible
      | some h =>
        rw [exists_rangeOf_checked_iff]
        constructor
        · rintro narrow - _ _ ⟨⟩ ⟨⟩
          exact narrow
        · intro narrow
          exact narrow rfl l h rfl rfl

/-- The width of a range that is not inverted is the number of its members. -/
theorem narrow_iff {low high widest : Int} :
    low ≤ high ∧ ((Finset.Icc low high).card : Int) ≤ widest ↔
      low ≤ high ∧ high - low + 1 ≤ widest := by
  apply and_congr_right
  intro proper
  rw [Int.card_Icc, Int.toNat_of_nonneg (by omega)]
  apply iff_of_eq
  congr 1
  omega

theorem exists_mergedRange_iff {options : Options} {cs : List Condition} :
    (∃ range, mergedRange options cs = .ok range) ↔
      (options.allowOpenRange = true ∨
        ((∃ c ∈ cs, c.1.isLower = true) ↔ ∃ c ∈ cs, c.1.isUpper = true)) ∧
      (options.validateRange = true → ∀ low high : Int,
        IsGreatest (lowerEnds cs) low → IsLeast (upperEnds cs) high →
          low ≤ high ∧ ((Finset.Icc low high).card : Int) ≤ options.config.maxTimestampRange) := by
  simp only [narrow_iff, ← max?_lowerBounds_eq_some_iff, ← min?_upperBounds_eq_some_iff]
  rw [← isEmpty_bounds_eq_iff, ← exists_rangeOf_iff, mergedRange]
  by_cases boundless :
      ((cs.filterMap lowerBound?).isEmpty && (cs.filterMap upperBound?).isEmpty) = true
  · rw [if_pos boundless]
    rw [Bool.and_eq_true, List.isEmpty_iff, List.isEmpty_iff] at boundless
    rw [boundless.1, boundless.2]
    exact iff_of_true ⟨none, rfl⟩ ⟨Or.inr rfl, _, rfl⟩
  · rw [if_neg boundless]
    have sided : ¬((((cs.filterMap lowerBound?).isEmpty || (cs.filterMap upperBound?).isEmpty) &&
        !options.allowOpenRange) = true) ↔ (options.allowOpenRange = true ∨
          (cs.filterMap lowerBound?).isEmpty = (cs.filterMap upperBound?).isEmpty) := by
      revert boundless
      cases (cs.filterMap lowerBound?).isEmpty <;> cases (cs.filterMap upperBound?).isEmpty <;>
        simp
    rw [← sided]
    split
    · next halfOpen =>
      apply iff_of_false
      · rintro ⟨range, impossible⟩
        cases impossible
      · rintro ⟨closed, -⟩
        exact closed halfOpen
    · next closed =>
      rw [and_iff_right closed]
      constructor
      · rintro ⟨range, made⟩
        rcases map_eq_ok.mp made with ⟨interval, made, -⟩
        exact ⟨interval, made⟩
      · rintro ⟨interval, made⟩
        exact ⟨some interval, map_eq_ok.mpr ⟨interval, made, rfl⟩⟩

theorem exists_mergedOf_iff {options : Options} {cs : List Condition} :
    (∃ merged, mergedOf options cs = .ok merged) ↔
      (options.isStrict = true → IsSimple options.allowNe cs) ∧
        ∃ range, mergedRange options cs = .ok range := by
  rw [← result_checkStrict_eq_ok_iff]
  constructor
  · rintro ⟨merged, done⟩
    rcases bind_eq_ok.mp done with ⟨_, unfaulted, done⟩
    rcases map_eq_ok.mp done with ⟨range, made, -⟩
    exact ⟨unfaulted, range, made⟩
  · rintro ⟨unfaulted, range, made⟩
    exact ⟨_, bind_eq_ok.mpr ⟨(), unfaulted, map_eq_ok.mpr ⟨range, made, rfl⟩⟩⟩

theorem exists_merge_iff_acceptable
    {filters : List Filter} {cs : List Condition}
    (read : List.Forall₂ Filter.Reads filters cs) (options : Options) :
    (∃ merged, (merge options filters).result = .ok merged) ↔ Acceptable options cs := by
  rw [result_merge read]
  split
  · next missing =>
    apply iff_of_false
    · rintro ⟨merged, impossible⟩
      cases impossible
    · intro acceptable
      exact acceptable.given missing.1 missing.2
  · next enough =>
    rw [exists_mergedOf_iff, exists_mergedRange_iff]
    constructor
    · rintro ⟨simple, sided, narrow⟩
      exact ⟨not_and.mp enough, simple, sided, narrow⟩
    · rintro ⟨-, simple, sided, narrow⟩
      exact ⟨simple, sided, narrow⟩

/-! ## Faults -/

/-- The only faults are those of a range. -/
def FaultsInRange {α : Type} (outcome : Except Fault α) : Prop :=
  ∀ fault, outcome = .error fault → ∃ cause, fault = .range cause

section Faults

variable {α β : Type}

theorem faultsInRange_ok (a : α) : FaultsInRange (.ok a : Except Fault α) := by
  intro fault impossible
  cases impossible

theorem faultsInRange_range (cause : RangeFault) :
    FaultsInRange (.error (.range cause) : Except Fault α) := by
  rintro fault ⟨⟩
  exact ⟨cause, rfl⟩

theorem FaultsInRange.bind
    {outcome : Except Fault α} {next : α → Except Fault β}
    (first : FaultsInRange outcome) (second : ∀ a, FaultsInRange (next a)) :
    FaultsInRange (outcome >>= next) := by
  cases outcome with
  | error fault =>
    rcases first fault rfl with ⟨cause, rfl⟩
    exact faultsInRange_range cause
  | ok a => exact second a

theorem FaultsInRange.map
    {outcome : Except Fault α} (inRange : FaultsInRange outcome) (f : α → β) :
    FaultsInRange (outcome.map f) := by
  cases outcome with
  | error fault =>
    rcases inRange fault rfl with ⟨cause, rfl⟩
    exact faultsInRange_range cause
  | ok a => exact faultsInRange_ok (f a)

end Faults

theorem faultsInRange_checkStrict (options : Options) (cs : List Condition) :
    FaultsInRange (checkStrict options cs).result := by
  rw [checkStrict]
  cases options.isStrict with
  | false => exact faultsInRange_ok ()
  | true =>
    rw [if_pos rfl]
    cases strictFault? options.allowNe cs with
    | none => exact faultsInRange_ok ()
    | some cause => exact faultsInRange_range cause

/-- The signed numbers of 64 bits. -/
def IsSigned64 (n : Int) : Prop :=
  -(Field.maxLong : Int) - 1 ≤ n ∧ n ≤ Field.maxLong

theorem IsSigned64.log2_le {n : Int} (signed : IsSigned64 n) : n.natAbs.log2 ≤ 63 := by
  rcases signed with ⟨least, greatest⟩
  have maximum : (Field.maxLong : Int) = 9223372036854775807 := rfl
  by_cases zero : n.natAbs = 0
  · rw [zero]
    decide
  · apply Nat.le_of_lt_succ
    rw [Nat.log2_lt zero]
    show n.natAbs < 18446744073709551616
    omega

/-- Every span of 64 bits can be written in days. -/
theorem exists_daysText {span : Int} (signed : IsSigned64 span) :
    ∃ text, daysText span = .ok text := by
  have day : oneDay.natAbs.log2 = 46 := by decide
  have fits : span.natAbs.log2 ≤ oneDay.natAbs.log2 + 52 := by
    have few := signed.log2_le
    omega
  rcases Numeral.Binary64.exists_quotient? (by decide : oneDay ≠ 0) fits with ⟨days, divided⟩
  rw [daysText, divided]
  exact ⟨_, rfl⟩

theorem faultsInRange_rangeOf
    {widest : Int} (signed : IsSigned64 widest) (validate : Bool) (low high : Option Int) :
    FaultsInRange (rangeOf validate widest low high) := by
  cases low with
  | none => cases high <;> exact faultsInRange_ok _
  | some l =>
    cases high with
    | none => exact faultsInRange_ok _
    | some h =>
      rw [rangeOf]
      split
      · cases validate with
        | false => exact faultsInRange_ok _
        | true => exact faultsInRange_range .inverted
      · split
        · rcases exists_daysText signed with ⟨days, written⟩
          rw [written, ok_bind]
          exact faultsInRange_range (.tooWide days)
        · exact faultsInRange_ok _

theorem faultsInRange_mergedRange
    {options : Options} (signed : IsSigned64 options.config.maxTimestampRange)
    (cs : List Condition) :
    FaultsInRange (mergedRange options cs) := by
  rw [mergedRange]
  split
  · exact faultsInRange_ok none
  · split
    · exact faultsInRange_range .halfOpen
    · exact (faultsInRange_rangeOf signed _ _ _).map some

theorem faultsInRange_merge
    {filters : List Filter} {cs : List Condition}
    (read : List.Forall₂ Filter.Reads filters cs)
    {options : Options} (signed : IsSigned64 options.config.maxTimestampRange) :
    FaultsInRange (merge options filters).result := by
  rw [result_merge read]
  split
  · exact faultsInRange_range .noFilter
  · apply (faultsInRange_checkStrict options cs).bind
    intro _
    exact (faultsInRange_mergedRange signed cs).map _

/--
Filters that are read as conditions are merged exactly when the options accept
the conditions, and otherwise the fault is one of the range.
-/
theorem merge_iff_acceptable
    {filters : List Filter} {cs : List Condition}
    (read : List.Forall₂ Filter.Reads filters cs)
    {options : Options} (signed : IsSigned64 options.config.maxTimestampRange) :
    ((∃ merged, (merge options filters).result = .ok merged) ↔ Acceptable options cs) ∧
      (¬Acceptable options cs →
        ∃ cause, (merge options filters).result = .error (.range cause)) := by
  have accepted := exists_merge_iff_acceptable read options
  refine ⟨accepted, ?_⟩
  intro unacceptable
  cases outcome : (merge options filters).result with
  | ok merged => exact absurd (accepted.mp ⟨merged, outcome⟩) unacceptable
  | error fault =>
    rcases faultsInRange_merge read signed fault outcome with ⟨cause, rfl⟩
    exact ⟨cause, rfl⟩

/-- A week is accepted when its end is left out, and refused when it is counted in. -/
theorem merge_iff_acceptable_week :
    let week (word : String) : List Filter :=
      [⟨"timestamp", "gte", .int 0⟩, ⟨"timestamp", word, .int 604800000000000⟩]
    IsSigned64 Config.standard.maxTimestampRange ∧
      List.Forall₂ Filter.Reads (week "lt") [(.gte, 0), (.lt, 604800000000000)] ∧
      Acceptable {} [(.gte, 0), (.lt, 604800000000000)] ∧
      List.Forall₂ Filter.Reads (week "lte") [(.gte, 0), (.lte, 604800000000000)] ∧
      ∃ cause, (merge {} (week "lte")).result = .error (.range cause) := by
  intro week
  have signed : IsSigned64 Config.standard.maxTimestampRange := by
    constructor <;> decide
  have readOpen : List.Forall₂ Filter.Reads (week "lt") [(.gte, 0), (.lt, 604800000000000)] :=
    .cons ⟨rfl, rfl⟩ (.cons ⟨rfl, rfl⟩ .nil)
  have readClosed : List.Forall₂ Filter.Reads (week "lte") [(.gte, 0), (.lte, 604800000000000)] :=
    .cons ⟨rfl, rfl⟩ (.cons ⟨rfl, rfl⟩ .nil)
  refine ⟨signed, readOpen, ?_, readClosed, ?_⟩
  · exact (merge_iff_acceptable readOpen signed).1.mp ⟨_, rfl⟩
  · apply (merge_iff_acceptable readClosed signed).2
    intro acceptable
    have narrow := acceptable.narrow rfl 0 604800000000000
      (max?_lowerBounds_eq_some_iff.mp rfl) (min?_upperBounds_eq_some_iff.mp rfl)
    have fits := (narrow_iff.mp narrow).2
    exact absurd fits (by decide)

end LedgerQuery.Timestamp
