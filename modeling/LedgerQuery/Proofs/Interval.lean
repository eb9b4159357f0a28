import LedgerQuery.Interval
import LedgerQuery.Proofs.Outcome

/-!
# Whole numbers in intervals

A whole number is compared with each bound of an interval on its own.  Where the
bounds are whole numbers or missing the comparison never fails, and it comes to
an inequality that is strict when the bound does not belong to the interval.
-/

namespace LedgerQuery

namespace Value

/-- A bound that is missing, or that is a whole number by its kind. -/
def IsBound (v : Value) : Option Int → Prop
  | none => v = .null
  | some n => v.integer = .ok n

theorem isNull_of_integer {v : Value} {n : Int} (read : v.integer = .ok n) : v.isNull = false := by
  cases v <;> cases read <;> rfl

end Value

namespace Interval

variable {i : Interval} {x : Int}

theorem aboveLower_of_null
    (missing : i.lower = .null) (v : Value) :
    i.aboveLower v = .ok true := by
  rw [aboveLower, missing]
  rfl

theorem belowUpper_of_null
    (missing : i.upper = .null) (v : Value) :
    i.belowUpper v = .ok true := by
  rw [belowUpper, missing]
  rfl

theorem aboveLower_of_integer
    {low : Int} (bound : i.lower.integer = .ok low) :
    i.aboveLower (.int x) =
      .ok (decide (if i.lowerInclusive = true then low ≤ x else low < x)) := by
  have compared : i.aboveLower (.int x) =
      .ok (!decide (x < low) && !(decide (x = low) && !i.lowerInclusive)) := by
    rw [aboveLower, if_neg (Bool.eq_false_iff.mp (Value.isNull_of_integer bound)),
      Value.less_of_integer rfl bound, ok_bind, Value.equal_of_integer rfl bound]
    cases decide (x < low) <;> rfl
  rw [compared]
  apply congrArg
  rw [Bool.eq_iff_iff]
  cases i.lowerInclusive with
  | false =>
    simp
    omega
  | true =>
    simp

theorem belowUpper_of_integer
    {high : Int} (bound : i.upper.integer = .ok high) :
    i.belowUpper (.int x) =
      .ok (decide (if i.upperInclusive = true then x ≤ high else x < high)) := by
  have compared : i.belowUpper (.int x) =
      .ok (!decide (high < x) && !(decide (x = high) && !i.upperInclusive)) := by
    rw [belowUpper, if_neg (Bool.eq_false_iff.mp (Value.isNull_of_integer bound)),
      Value.less_of_integer bound rfl, ok_bind, Value.equal_of_integer rfl bound]
    cases decide (high < x) <;> rfl
  rw [compared]
  apply congrArg
  rw [Bool.eq_iff_iff]
  cases i.upperInclusive with
  | false =>
    simp
    omega
  | true =>
    simp

/-- A value lies in an interval that is not declared empty when it lies on the right side of both
bounds. -/
theorem contains_of_sides
    (notEmpty : i.empty = false) {v : Value} {above below : Bool}
    (isAbove : i.aboveLower v = .ok above) (isBelow : i.belowUpper v = .ok below) :
    i.contains v = .ok (above && below) := by
  rw [contains, notEmpty, if_neg Bool.false_ne_true, isAbove, ok_bind, isBelow]
  cases above <;> rfl

/-- A whole number lies between bounds that are whole numbers or missing when it satisfies those
that there are. -/
theorem contains_of_bounds
    (notEmpty : i.empty = false) {low high : Option Int}
    (lower : i.lower.IsBound low) (upper : i.upper.IsBound high) (x : Int) :
    i.contains (.int x) = .ok (decide
      ((∀ l ∈ low, if i.lowerInclusive = true then l ≤ x else l < x) ∧
        ∀ h ∈ high, if i.upperInclusive = true then x ≤ h else x < h)) := by
  have above : i.aboveLower (.int x) =
      .ok (decide (∀ l ∈ low, if i.lowerInclusive = true then l ≤ x else l < x)) := by
    cases low with
    | none =>
      rw [aboveLower_of_null lower]
      simp
    | some l =>
      rw [aboveLower_of_integer lower]
      simp
  have below : i.belowUpper (.int x) =
      .ok (decide (∀ h ∈ high, if i.upperInclusive = true then x ≤ h else x < h)) := by
    cases high with
    | none =>
      rw [belowUpper_of_null upper]
      simp
    | some h =>
      rw [belowUpper_of_integer upper]
      simp
  rw [contains_of_sides notEmpty above below, Bool.decide_and]

end Interval

end LedgerQuery
