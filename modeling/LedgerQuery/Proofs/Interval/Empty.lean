import LedgerQuery.Proofs.Interval
import Mathlib.Data.Option.Basic

/-!
# Empty intervals

Whether an interval is empty is decided on its bounds: one that does not belong to
the interval is moved by one, and the bounds are compared.  Membership compares a
number with each bound in place.  The main statement is that the two agree for
bounds that are whole numbers or missing: an interval is empty exactly when it
contains no whole number.
-/

namespace LedgerQuery.Interval

/-! ## Whole numbers between bounds -/

/-- The least whole number above a lower bound. -/
def least (inclusive : Bool) (low : Int) : Int :=
  if inclusive then low else low + 1

/-- The greatest whole number below an upper bound. -/
def greatest (inclusive : Bool) (high : Int) : Int :=
  if inclusive then high else high - 1

theorem least_le_iff {inclusive : Bool} {low x : Int} :
    least inclusive low ≤ x ↔ if inclusive = true then low ≤ x else low < x := by
  cases inclusive with
  | false => exact Int.add_one_le_iff
  | true => exact Iff.rfl

theorem le_greatest_iff {inclusive : Bool} {high x : Int} :
    x ≤ greatest inclusive high ↔ if inclusive = true then x ≤ high else x < high := by
  cases inclusive with
  | false => exact Int.le_sub_one_iff
  | true => exact Iff.rfl

/-- A number lies between two bounds as soon as they are in order; where one of them is missing
there always is such a number. -/
theorem exists_between_iff (low high : Option Int) :
    (∃ x, (∀ l ∈ low, l ≤ x) ∧ ∀ h ∈ high, x ≤ h) ↔ ∀ l ∈ low, ∀ h ∈ high, l ≤ h := by
  constructor
  · rintro ⟨x, above, below⟩ l isLow h isHigh
    exact Int.le_trans (above l isLow) (below h isHigh)
  · intro ordered
    cases low with
    | some l =>
      refine ⟨l, ?_, ordered l rfl⟩
      rintro _ ⟨⟩
      exact Int.le_refl l
    | none =>
      cases high with
      | some h =>
        refine ⟨h, by simp, ?_⟩
        rintro _ ⟨⟩
        exact Int.le_refl h
      | none => exact ⟨0, by simp, by simp⟩

/-! ## The test for emptiness -/

/-- A bound that does not belong to the interval is moved by a step. -/
theorem exists_moved
    {bound : Value} {n : Int} (read : bound.integer = .ok n) (inclusive : Bool) (step : Int) :
    ∃ moved : Value, (if inclusive = true then Except.ok bound else bound.shift step) = .ok moved ∧
      moved.integer = .ok (if inclusive = true then n else n + step) := by
  cases inclusive with
  | false => exact ⟨_, Value.shift_of_integer read step, rfl⟩
  | true => exact ⟨bound, rfl, read⟩

section Bounds

variable {i : Interval} {low high : Option Int}

theorem isEmpty_of_empty (empty : i.empty = true) : i.isEmpty = .ok true := by
  rw [isEmpty, if_pos empty]

theorem isEmpty_of_integers
    (notEmpty : i.empty = false)
    {l h : Int} (lower : i.lower.integer = .ok l) (upper : i.upper.integer = .ok h) :
    i.isEmpty = .ok (decide (greatest i.upperInclusive h < least i.lowerInclusive l)) := by
  have compared : i.isEmpty =
      (if i.lowerInclusive = true then Except.ok i.lower else i.lower.shift 1) >>= fun low =>
        (if i.upperInclusive = true then Except.ok i.upper else i.upper.shift (-1)) >>= fun high =>
          high.less low := by
    rw [isEmpty, notEmpty, if_neg Bool.false_ne_true, Value.isNull_of_integer lower,
      Value.isNull_of_integer upper, Bool.or_self, if_neg Bool.false_ne_true]
    cases i.lowerInclusive <;> cases i.upperInclusive <;> rfl
  rcases exists_moved lower i.lowerInclusive 1 with ⟨lowest, lowMoved, lowRead⟩
  rcases exists_moved upper i.upperInclusive (-1) with ⟨highest, highMoved, highRead⟩
  rw [compared, lowMoved, highMoved, ok_bind, ok_bind, Value.less_of_integer highRead lowRead]
  rfl

/-- The interval is empty when the numbers next to its bounds are not in order. -/
theorem isEmpty_of_bounds
    (notEmpty : i.empty = false) (lower : i.lower.IsBound low) (upper : i.upper.IsBound high) :
    i.isEmpty = .ok (!decide (∀ l ∈ low.map (least i.lowerInclusive),
      ∀ h ∈ high.map (greatest i.upperInclusive), l ≤ h)) := by
  have missing (noBound : i.lower.isNull = true ∨ i.upper.isNull = true) :
      i.isEmpty = .ok false := by
    rw [isEmpty, notEmpty, if_neg Bool.false_ne_true, if_pos (Bool.or_eq_true_iff.mpr noBound)]
  cases low with
  | none =>
    rw [missing (.inl (congrArg Value.isNull lower))]
    simp
  | some l =>
    cases high with
    | none =>
      rw [missing (.inr (congrArg Value.isNull upper))]
      simp
    | some h =>
      rw [isEmpty_of_integers notEmpty lower upper]
      simp [← decide_not]

/-- Membership by the numbers next to the bounds. -/
theorem contains_of_nearest
    (notEmpty : i.empty = false) (lower : i.lower.IsBound low) (upper : i.upper.IsBound high)
    (x : Int) :
    i.contains (.int x) = .ok (decide ((∀ l ∈ low.map (least i.lowerInclusive), l ≤ x) ∧
      ∀ h ∈ high.map (greatest i.upperInclusive), x ≤ h)) := by
  rw [contains_of_bounds notEmpty lower upper]
  simp only [Option.forall_mem_map, least_le_iff, le_greatest_iff]

/-- Whether a whole number lies in an interval is always answered. -/
theorem exists_contains
    (lower : i.lower.IsBound low) (upper : i.upper.IsBound high) (x : Int) :
    ∃ inside, i.contains (.int x) = .ok inside := by
  cases empty : i.empty with
  | false => exact ⟨_, contains_of_bounds empty lower upper x⟩
  | true =>
    refine ⟨false, ?_⟩
    rw [contains, if_pos empty]

/-- The test for emptiness agrees with membership, whatever the marks are. -/
theorem exists_isEmpty_iff
    (lower : i.lower.IsBound low) (upper : i.upper.IsBound high) :
    ∃ answer, i.isEmpty = .ok answer ∧
      (answer = true ↔ ∀ x : Int, i.contains (.int x) = .ok false) := by
  cases empty : i.empty with
  | true =>
    refine ⟨true, isEmpty_of_empty empty, iff_of_true rfl ?_⟩
    intro x
    rw [contains, if_pos empty]
  | false =>
    refine ⟨_, isEmpty_of_bounds empty lower upper, ?_⟩
    have nothing (x : Int) := contains_of_nearest empty lower upper x
    simp only [nothing, Except.ok.injEq, decide_eq_false_iff_not, Bool.not_eq_true',
      ← exists_between_iff, not_exists]

end Bounds

/--
For every interval whose bounds are whole numbers or missing, with any marks and
whether or not it is declared empty, the tests for emptiness and membership have
answers and agree: the interval is empty exactly when it contains no whole
number.  Where a bound is missing, it makes no difference whether it is marked as
belonging to the interval.
-/
theorem isEmpty_make_iff
    {lower upper : Value} {low high : Option Int}
    (isLower : lower.IsBound low) (isUpper : upper.IsBound high)
    (lowerInclusive upperInclusive empty : Bool) :
    let i := make lower upper lowerInclusive upperInclusive empty
    (∃ answer, i.isEmpty = .ok answer ∧
        (answer = true ↔ ∀ x : Int, i.contains (.int x) = .ok false)) ∧
      (∀ x : Int, ∃ inside, i.contains (.int x) = .ok inside) ∧
      (lower = .null → ∀ v, (make lower upper true upperInclusive empty).contains v =
        (make lower upper false upperInclusive empty).contains v) ∧
      (upper = .null → ∀ v, (make lower upper lowerInclusive true empty).contains v =
        (make lower upper lowerInclusive false empty).contains v) := by
  intro i
  refine ⟨exists_isEmpty_iff isLower isUpper, exists_contains isLower isUpper, ?_, ?_⟩
  · rintro rfl v
    rfl
  · rintro rfl v
    rfl

/-- No whole number lies between one and two, a truth value standing for the one; without the upper
bound there are some, for either mark. -/
theorem isEmpty_make_iff_adjacent :
    (Value.bool true).IsBound (some 1) ∧ (Value.int 2).IsBound (some 2) ∧
      Value.null.IsBound .none ∧
      (make (.bool true) (.int 2) false false false).isEmpty = .ok true ∧
      (∀ x : Int, (make (.bool true) (.int 2) false false false).contains (.int x) = .ok false) ∧
      (make (.bool true) .null false true false).contains (.int 2) = .ok true ∧
      (make (.bool true) .null false false false).contains (.int 2) = .ok true := by
  have isLower : (Value.bool true).IsBound (some 1) := rfl
  have isUpper : (Value.int 2).IsBound (some 2) := rfl
  have noUpper : Value.null.IsBound .none := rfl
  have isEmpty : (make (.bool true) (.int 2) false false false).isEmpty = .ok true := by
    decide
  have inside : (make (.bool true) .null false true false).contains (.int 2) = .ok true := by
    decide
  rcases isEmpty_make_iff isLower isUpper false false false with ⟨⟨answer, decided, agrees⟩, -⟩
  rcases isEmpty_make_iff isLower noUpper false true false with ⟨-, -, -, marks⟩
  cases decided.symm.trans isEmpty
  exact ⟨isLower, isUpper, noUpper, isEmpty, agrees.mp rfl, inside,
    (marks rfl (.int 2)).symm.trans inside⟩

end LedgerQuery.Interval
