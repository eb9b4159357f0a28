import LedgerQuery.Proofs.Search
import LedgerQuery.Proofs.Timestamp.Acceptance
import LedgerQuery.Proofs.Value.Parts

/-!
# Malformed filters

A filter with an unknown operator is refused, and so is one whose value stands for
no number: either way the fault is one of the range.  Two kinds of value escape.
An infinity is a number, but has no whole part; and the message that refuses a
value cannot be written when the value holds a number of too many digits.

Filters are checked one after the other, so such a value does harm only where
every filter in front of it is read.
-/

namespace LedgerQuery

namespace Value

/-! ## Values without a whole part -/

/-- An infinite floating point number. -/
def IsInfinite (v : Value) : Prop :=
  ∃ x negative, v = .float x ∧ x.reading = .infinite negative

/-- Only an infinity is too large to have a whole part. -/
theorem toInt_eq_overflow_iff {v : Value} : v.toInt = .error .overflow ↔ v.IsInfinite := by
  have misread {α : Type} (outcome : Except Misreading α) :
      outcome.mapError Fault.unreadable ≠ .error .overflow := by
    cases outcome <;> exact fun impossible => by cases impossible
  constructor
  · intro overflows
    cases v with
    | float x =>
      rw [toInt] at overflows
      split at overflows
      · cases overflows
      · next negative infinite => exact ⟨x, negative, rfl, infinite⟩
      · cases overflows
    | text s => exact absurd overflows (misread _)
    | operator o => exact absurd overflows (misread _)
    | bytes b => exact absurd overflows (misread _)
    | null | bool | int | list | tuple | entity | pair | cursor | map => cases overflows
  · rintro ⟨x, negative, rfl, infinite⟩
    rw [toInt, infinite]

/-! ## Values that do harm -/

/-- Apart from numbers themselves, only values that hold others can be impossible to show, and
these stand for no number. -/
theorem toInt_of_not_isShowable
    {v : Value} (notInt : v.isInt = false) (overlong : ¬v.IsShowable) :
    v.toInt = .error .mistyped := by
  cases v with
  | int n => cases notInt
  | null | list | tuple | entity | pair | cursor | map => rfl
  | bool | float | text | bytes | operator =>
    exact absurd ((isShowable_iff_parts notInt).mpr (List.forall_mem_nil _)) overlong

/-- An infinity, or a value that holds a number of too many digits without being a number. -/
def Escapes (v : Value) : Prop :=
  v.IsInfinite ∨ v.isInt = false ∧ ¬v.IsShowable

theorem not_escapes_of_toInt {v : Value} {n : Int} (whole : v.toInt = .ok n) : ¬v.Escapes := by
  rintro (infinite | ⟨notInt, overlong⟩)
  · cases whole.symm.trans (toInt_eq_overflow_iff.mpr infinite)
  · cases whole.symm.trans (toInt_of_not_isShowable notInt overlong)

theorem isInt_eq_false_of_toInt {v : Value} {fault : Fault} (failed : v.toInt = .error fault) :
    v.isInt = false := by
  cases v with
  | int n => cases failed
  | _ => rfl

end Value

namespace Timestamp

section Faults

variable {α β : Type}

theorem not_faultsInRange_error
    {fault : Fault} (outside : ∀ cause, fault ≠ .range cause) :
    ¬FaultsInRange (.error fault : Except Fault α) := by
  intro inRange
  rcases inRange fault rfl with ⟨cause, same⟩
  exact outside cause same

theorem faultsInRange_iff {outcome : Except Fault α} :
    FaultsInRange outcome ↔
      (∃ a, outcome = .ok a) ∨ ∃ cause, outcome = .error (.range cause) := by
  constructor
  · intro inRange
    cases outcome with
    | ok a => exact Or.inl ⟨a, rfl⟩
    | error fault =>
      rcases inRange fault rfl with ⟨cause, rfl⟩
      exact Or.inr ⟨cause, rfl⟩
  · rintro (⟨a, rfl⟩ | ⟨cause, rfl⟩)
    · exact faultsInRange_ok a
    · exact faultsInRange_range cause

/-- Where what follows cannot do harm, only the first step matters. -/
theorem faultsInRange_bind_iff
    {outcome : Except Fault α} {next : α → Except Fault β}
    (harmless : ∀ a, FaultsInRange (next a)) :
    FaultsInRange (outcome >>= next) ↔ FaultsInRange outcome := by
  constructor
  · intro inRange fault failed
    apply inRange fault
    rw [failed]
    rfl
  · intro inRange
    exact inRange.bind harmless

/-- A sequence of steps ends with another fault where the first step that fails does. -/
theorem faultsInRange_mapM_iff {make : α → Except Fault β} {items : List α} :
    FaultsInRange (items.mapM make) ↔
      ¬Reaches (fun a => ∃ b, make a = .ok b) (fun a => ¬FaultsInRange (make a)) items := by
  constructor
  · rintro inRange ⟨before, a, after, split, escapes, passed⟩
    cases outcome : make a with
    | ok b =>
      rw [outcome] at escapes
      exact escapes (faultsInRange_ok b)
    | error fault =>
      have failed := mapM_eq_error_iff.mpr ⟨before, a, after, split, outcome, passed⟩
      rcases inRange fault failed with ⟨cause, rfl⟩
      rw [outcome] at escapes
      exact escapes (faultsInRange_range cause)
  · intro unreached fault failed
    rcases mapM_eq_error_iff.mp failed with ⟨before, a, after, split, outcome, passed⟩
    by_contra outside
    rw [not_exists] at outside
    apply unreached
    refine ⟨before, a, after, split, ?_, passed⟩
    show ¬FaultsInRange (make a)
    rw [outcome]
    exact not_faultsInRange_error outside

end Faults

/-! ## One filter -/

namespace Filter

/-- The checks neither read nor refuse a filter with a known operator and a value that escapes. -/
def Escapes (f : Filter) : Prop :=
  (∃ operator, Operator.ofWord? f.operator = some operator) ∧ f.value.Escapes

/-- What a filter is read as. -/
def condition (f : Filter) : Except Fault Condition :=
  f.checkedOperator.result >>= fun operator =>
    f.checkedValue.result >>= fun value => .ok (operator, value)

variable {f : Filter}

theorem result_checkedValue_of_ok {n : Int} (whole : f.value.toInt = .ok n) :
    f.checkedValue.result = .ok n := by
  rw [checkedValue, whole]
  rfl

theorem result_checkedValue_of_infinite (infinite : f.value.IsInfinite) :
    f.checkedValue.result = .error .overflow := by
  rw [checkedValue, Value.toInt_eq_overflow_iff.mpr infinite]
  rfl

theorem result_checkedValue_of_error
    {fault : Fault} (failed : f.value.toInt = .error fault) (finite : ¬f.value.IsInfinite) :
    f.checkedValue.result =
      f.value.shown >>= fun text => .error (.range (.unreadableValue text)) := by
  rw [checkedValue, failed]
  split
  · next impossible => cases impossible
  · next overflows =>
    rw [overflows] at failed
    exact absurd (Value.toInt_eq_overflow_iff.mp failed) finite
  · rw [Traced.result_bind]
    rfl

theorem result_checkedValue_eq_ok_iff {n : Int} :
    f.checkedValue.result = .ok n ↔ f.value.toInt = .ok n := by
  refine ⟨?_, result_checkedValue_of_ok⟩
  intro checked
  cases whole : f.value.toInt with
  | ok m =>
    rw [result_checkedValue_of_ok whole] at checked
    cases checked
    rfl
  | error fault =>
    by_cases infinite : f.value.IsInfinite
    · rw [result_checkedValue_of_infinite infinite] at checked
      cases checked
    · rw [result_checkedValue_of_error whole infinite] at checked
      rcases bind_eq_ok.mp checked with ⟨text, -, impossible⟩
      cases impossible

theorem faultsInRange_checkedValue_iff :
    FaultsInRange f.checkedValue.result ↔ ¬f.value.Escapes := by
  cases whole : f.value.toInt with
  | ok n =>
    rw [result_checkedValue_of_ok whole]
    exact iff_of_true (faultsInRange_ok n) (Value.not_escapes_of_toInt whole)
  | error fault =>
    by_cases infinite : f.value.IsInfinite
    · rw [result_checkedValue_of_infinite infinite]
      apply iff_of_false _ (not_not_intro (Or.inl infinite))
      exact not_faultsInRange_error fun cause impossible => by cases impossible
    · rw [result_checkedValue_of_error whole infinite]
      by_cases showable : f.value.IsShowable
      · rw [Value.shown_of_isShowable showable]
        apply iff_of_true (faultsInRange_range _)
        rintro (impossible | ⟨-, overlong⟩)
        · exact infinite impossible
        · exact overlong showable
      · rw [Value.shown_of_not_isShowable showable]
        apply iff_of_false
        · exact not_faultsInRange_error fun cause impossible => by cases impossible
        · exact not_not_intro (Or.inr ⟨Value.isInt_eq_false_of_toInt whole, showable⟩)

theorem condition_of_unknown (unknown : Operator.ofWord? f.operator = none) :
    f.condition = .error (.range (.unknownOperator (Text.quoted f.operator))) := by
  rw [condition, checkedOperator, unknown]
  rfl

theorem condition_of_known
    {operator : Operator} (known : Operator.ofWord? f.operator = some operator) :
    f.condition = f.checkedValue.result >>= fun value => .ok (operator, value) := by
  rw [condition, checkedOperator, known]
  rfl

theorem condition_eq_ok_iff {c : Condition} : f.condition = .ok c ↔ f.Reads c := by
  cases known : Operator.ofWord? f.operator with
  | none =>
    rw [condition_of_unknown known, Reads, known]
    simp
  | some operator =>
    rw [condition_of_known known, bind_eq_ok, Reads, known]
    simp only [result_checkedValue_eq_ok_iff]
    constructor
    · rintro ⟨n, whole, ⟨⟩⟩
      exact ⟨rfl, whole⟩
    · rintro ⟨⟨⟩, whole⟩
      exact ⟨c.2, whole, rfl⟩

theorem faultsInRange_condition_iff : FaultsInRange f.condition ↔ ¬f.Escapes := by
  cases known : Operator.ofWord? f.operator with
  | none =>
    rw [condition_of_unknown known]
    apply iff_of_true (faultsInRange_range _)
    rintro ⟨⟨operator, impossible⟩, -⟩
    cases known.symm.trans impossible
  | some operator =>
    rw [condition_of_known known, faultsInRange_bind_iff fun _ => faultsInRange_ok _,
      faultsInRange_checkedValue_iff, Escapes, and_iff_right ⟨operator, known⟩]

end Filter

/-! ## All filters -/

theorem result_conditions_eq_mapM (filters : List Filter) :
    (conditions filters).result = filters.mapM Filter.condition := by
  induction filters with
  | nil => rfl
  | cons f filters ih =>
    rw [conditions, List.mapM_cons, Filter.condition, ← ih]
    simp only [Traced.result_bind, bind_assoc, ok_bind]
    rfl

/-- The checks come to a filter that escapes them, past filters that are read. -/
def EscapesChecks (filters : List Filter) : Prop :=
  Reaches (fun f => ∃ c, f.Reads c) Filter.Escapes filters

theorem faultsInRange_conditions_iff (filters : List Filter) :
    FaultsInRange (conditions filters).result ↔ ¬EscapesChecks filters := by
  rw [result_conditions_eq_mapM, faultsInRange_mapM_iff, EscapesChecks]
  apply not_congr
  apply reaches_congr
  · intro f _
    simp only [Filter.condition_eq_ok_iff]
  · intro f _
    rw [Filter.faultsInRange_condition_iff, not_not]

/-- What is done with conditions has no other faults than those of a range. -/
theorem faultsInRange_merge_iff_conditions
    {options : Options} (signed : IsSigned64 options.config.maxTimestampRange)
    (filters : List Filter) :
    FaultsInRange (merge options filters).result ↔ FaultsInRange (conditions filters).result := by
  cases filters with
  | nil =>
    have nothing := faultsInRange_merge .nil signed
    exact iff_of_true nothing (faultsInRange_ok [])
  | cons f rest =>
    rw [merge, List.isEmpty_cons, if_neg Bool.false_ne_true, Traced.result_bind]
    apply faultsInRange_bind_iff
    intro cs
    rw [Traced.result_bind]
    apply (faultsInRange_checkStrict options cs).bind
    intro _
    rw [Traced.result_bind]
    apply (faultsInRange_mergedRange signed cs).bind
    intro range
    exact faultsInRange_ok _

/-- Filters are merged, or they are refused with a fault of the range. -/
def MergesOrRefuses (options : Options) (filters : List Filter) : Prop :=
  (∃ merged, (merge options filters).result = .ok merged) ∨
    ∃ cause, (merge options filters).result = .error (.range cause)

/--
Malformed filters are refused with a fault of the range, unless the checks come to
an infinity, or to a value that cannot be shown, past filters that are read.
-/
theorem mergesOrRefuses_iff
    {options : Options} (signed : IsSigned64 options.config.maxTimestampRange)
    (filters : List Filter) :
    MergesOrRefuses options filters ↔ ¬EscapesChecks filters := by
  rw [MergesOrRefuses, ← faultsInRange_iff, faultsInRange_merge_iff_conditions signed,
    faultsInRange_conditions_iff]

/-- A number that is none is refused, and the infinity behind it is not looked at. -/
theorem mergesOrRefuses_notANumber :
    let filters : List Filter :=
      [⟨"timestamp", "gte", .float .nan⟩, ⟨"timestamp", "lte", .float (.infinity false)⟩]
    IsSigned64 Config.standard.maxTimestampRange ∧ ¬EscapesChecks filters ∧
      MergesOrRefuses {} filters := by
  intro filters
  have signed : IsSigned64 Config.standard.maxTimestampRange := by
    constructor <;> decide
  have stays : ¬EscapesChecks filters := by
    rw [EscapesChecks, reaches_cons_iff]
    rintro (⟨-, ⟨x, negative, ⟨⟩, infinite⟩ | ⟨-, overlong⟩⟩ | ⟨⟨c, -, impossible⟩, -⟩)
    · have reading : Numeral.Binary64.nan.reading = .nan := by decide
      cases reading.symm.trans infinite
    · exact overlong ((Value.isShowable_iff_parts rfl).mpr nofun)
    · cases impossible
  exact ⟨signed, stays, (mergesOrRefuses_iff signed filters).mpr stays⟩

/-- A lower bound at infinity is no fault of the range. -/
theorem mergesOrRefuses_refuted :
    let filters : List Filter :=
      [⟨"timestamp", "gte", .float (.infinity false)⟩, ⟨"timestamp", "lte", .int 5⟩]
    (merge {} filters).result = .error .overflow ∧ ¬MergesOrRefuses {} filters := by
  intro filters
  have failed : (merge {} filters).result = .error .overflow := rfl
  refine ⟨failed, ?_⟩
  rintro (⟨merged, impossible⟩ | ⟨cause, impossible⟩)
  · cases failed.symm.trans impossible
  · cases failed.symm.trans impossible

end Timestamp

end LedgerQuery
