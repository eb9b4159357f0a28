import LedgerQuery.Field.Integer
import LedgerQuery.Proofs.Numeral.Run
import LedgerQuery.Proofs.Value.Parts

/-!
# Whole numbers and their texts

A range is checked of a whole number or of its decimal text.  A text may have so
many digits only, and is compared after that.  No number up to a maximum of so
many digits has more of them, and a sign is no digit, so the limit refuses
nothing but negative numbers and what the comparison refuses anyway.
-/

namespace LedgerQuery.Field

open Numeral (isRun signedDecimal value writeInt)

/-- The digits allowed are enough for a maximum: the text of a number is within both limits exactly
when the number lies between zero and the maximum. -/
theorem isRun_and_value_le_iff
    {n : Int} {digits most : Nat} (positive : 0 < digits) (enough : most < 10 ^ digits) :
    isRun 1 digits (signedDecimal n) = true ∧ value (signedDecimal n) ≤ most ↔
      0 ≤ n ∧ n ≤ most := by
  rw [Numeral.isRun_signedDecimal_iff positive]
  constructor
  · rintro ⟨⟨nonneg, -⟩, small⟩
    have same := Numeral.value_signedDecimal nonneg
    exact ⟨nonneg, by omega⟩
  · rintro ⟨nonneg, small⟩
    have same := Numeral.value_signedDecimal nonneg
    exact ⟨⟨nonneg, by omega⟩, by omega⟩

theorem isLong_iff {allowZero : Bool} {n : Int} :
    isLong allowZero n = true ↔ (if allowZero then 0 else 1) ≤ n ∧ n ≤ maxLong := by
  rw [isLong, Bool.and_eq_true, decide_eq_true_eq, decide_eq_true_eq]

/-- A number of 64 bits is not negative. -/
theorem nonneg_of_isLong
    {allowZero : Bool} {n : Int} (long : isLong allowZero n = true) :
    0 ≤ n := by
  have least := (isLong_iff.mp long).1
  split at least <;> omega

theorem longText?_writeInt (n : Int) :
    longText? (writeInt n) =
      if isRun 1 19 (signedDecimal n) then some (value (signedDecimal n)) else none := by
  rw [longText?, Numeral.line_writeInt]

/-- A text passes when it is read as a number that does. -/
theorem isPositiveLong_text_iff {s : String} {allowZero : Bool} :
    isPositiveLong (.text s) allowZero = true ↔
      ∃ n, longText? s = some n ∧ isLong allowZero n = true := by
  cases read : longText? s <;> simp [isPositiveLong, Value.asText?, read]

/-- The text of a number passes as the number does. -/
theorem isPositiveLong_writeInt (n : Int) (allowZero : Bool) :
    isPositiveLong (.text (writeInt n)) allowZero = isLong allowZero n := by
  rw [Bool.eq_iff_iff, isPositiveLong_text_iff, longText?_writeInt]
  constructor
  · rintro ⟨m, read, long⟩
    obtain ⟨run, same⟩ := Option.ite_none_right_eq_some.mp read
    have nonneg := ((Numeral.isRun_signedDecimal_iff (by decide)).mp run).1
    rwa [← Option.some.inj same, Numeral.value_signedDecimal nonneg] at long
  · intro long
    have nonneg := nonneg_of_isLong long
    have within := (isRun_and_value_le_iff (by decide : 0 < 19) (by decide : maxLong < 10 ^ 19)).mpr
      ⟨nonneg, (isLong_iff.mp long).2⟩
    refine ⟨value (signedDecimal n), if_pos within.1, ?_⟩
    rwa [Numeral.value_signedDecimal nonneg]

/-- A value passes by its text. -/
theorem isNonNegativeInt32_iff_of_plain {v : Value} {n : Int} (text : v.plain = writeInt n) :
    isNonNegativeInt32 v = true ↔ 0 ≤ n ∧ n ≤ maxInt32 := by
  rw [isNonNegativeInt32, text, Numeral.line_writeInt, Bool.and_eq_true, decide_eq_true_eq]
  exact isRun_and_value_le_iff (by decide) (by decide)

/-- A number of not too many digits has a text. -/
theorem isShowable_int_of_length {n : Int} (few : (Numeral.decimal n.natAbs).length ≤ digitLimit) :
    (Value.int n).IsShowable := by
  have below (most : Nat) (positive : 0 < most)
      (within : (Numeral.decimal n.natAbs).length ≤ most) : n.natAbs < Nat.pow 10 most :=
    (Numeral.length_decimal_le_iff positive).mp within
  exact Value.isShowable_int_iff.mpr (below _ (by decide) few)

/--
A whole number of at most four thousand digits has a text.  The check for 64 bits
answers the same for the number and for its text, namely whether the number lies
between one, or zero where that is allowed, and the greatest signed number of 64
bits.  The check for 32 bits accepts number and text exactly when the number lies
between zero and the greatest signed number of 32 bits, and it can write both.
-/
theorem inRange_writeInt_iff (n : Int) (few : (Numeral.decimal n.natAbs).length ≤ 4000) :
    (Value.int n).shown = .ok (writeInt n) ∧
      (∀ allowZero, isPositiveLong (.text (writeInt n)) allowZero =
          isPositiveLong (.int n) allowZero ∧
        (isPositiveLong (.int n) allowZero = true ↔
          (if allowZero then 0 else 1) ≤ n ∧ n ≤ 2 ^ 63 - 1)) ∧
      (isNonNegativeInt32 (.int n) = true ↔ 0 ≤ n ∧ n ≤ 2 ^ 31 - 1) ∧
      (isNonNegativeInt32 (.text (writeInt n)) = true ↔ 0 ≤ n ∧ n ≤ 2 ^ 31 - 1) ∧
      checkNonNegativeInt32 (.int n) = .ok (isNonNegativeInt32 (.int n)) ∧
      checkNonNegativeInt32 (.text (writeInt n)) =
        .ok (isNonNegativeInt32 (.text (writeInt n))) := by
  have showable : (Value.int n).IsShowable := isShowable_int_of_length (le_trans few (by decide))
  refine ⟨Value.shown_of_isShowable showable, ?_, ?_, ?_, Value.ifWritable_of_isShowable showable _,
    Value.ifWritable_of_isShowable (Value.isShowable_text _) _⟩
  · intro allowZero
    exact ⟨isPositiveLong_writeInt n allowZero, isLong_iff⟩
  · exact isNonNegativeInt32_iff_of_plain rfl
  · exact isNonNegativeInt32_iff_of_plain rfl

/-- The first number that has too many bits has as many digits as the greatest one, and the first
one with more digits is refused for these. -/
theorem inRange_writeInt_iff_limits :
    (∀ n ∈ [2 ^ 63 - 1, 2 ^ 63, 10 ^ 19], (Numeral.decimal (n : Int).natAbs).length ≤ 4000) ∧
      isPositiveLong (.text (writeInt (2 ^ 63 - 1))) false = true ∧
      isPositiveLong (.text (writeInt (2 ^ 63))) false = false ∧
      isPositiveLong (.text (writeInt (10 ^ 19))) false = false := by
  have few : ∀ n ∈ [2 ^ 63 - 1, 2 ^ 63, 10 ^ 19],
      (Numeral.decimal (n : Int).natAbs).length ≤ 4000 := by
    decide +kernel
  refine ⟨few, ?_, ?_, ?_⟩
  · rw [((inRange_writeInt_iff _ (few _ (by simp))).2.1 false).1]
    decide
  · rw [((inRange_writeInt_iff _ (few _ (by simp))).2.1 false).1]
    decide
  · rw [((inRange_writeInt_iff _ (few _ (by simp))).2.1 false).1]
    decide

end LedgerQuery.Field
