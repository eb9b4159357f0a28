import LedgerQuery.Numeral.Decimal
import Mathlib

/-!
# Bounds of decimal numerals

The digits of all scripts are below ten, so the number of characters bounds the number that a text
spells.
-/

namespace LedgerQuery.Numeral

theorem digitValue?_lt {c : Char} {digit : Nat} (read : Text.digitValue? c = some digit) :
    digit < 10 := by
  rw [Text.digitValue?] at read
  split at read
  · split at read
    · next ascii =>
      have last : c.toNat ≤ 57 := (Char.isDigit_iff_toNat.mp ascii).2
      have value : c.toNat - 48 = digit := Option.some.inj read
      omega
    · cases read
  · rcases Option.map_eq_some_iff.mp read with ⟨first, found, value⟩
    have inside := List.find?_some found
    simp only [Bool.and_eq_true, decide_eq_true_eq] at inside
    omega

theorem ofDigits_concat (base : Nat) (digits : List Nat) (last : Nat) :
    ofDigits base (digits ++ [last]) = base * ofDigits base digits + last := by
  rw [ofDigits, List.foldl_append]
  rfl

/-- Digits in front of others stand at a higher place. -/
theorem ofDigits_append (base : Nat) (front back : List Nat) :
    ofDigits base (front ++ back) =
      ofDigits base front * base ^ back.length + ofDigits base back := by
  induction back using List.reverseRecOn with
  | nil => simp [ofDigits]
  | append_singleton back last ih =>
    rw [← List.append_assoc, ofDigits_concat, ofDigits_concat, ih, List.length_append,
      List.length_singleton, pow_succ]
    ring

theorem ofDigits_lt
    {base : Nat} {digits : List Nat} (small : ∀ digit ∈ digits, digit < base) :
    ofDigits base digits < base ^ digits.length := by
  induction digits using List.reverseRecOn with
  | nil => exact Nat.one_pos
  | append_singleton digits last ih =>
    rw [List.forall_mem_append, List.forall_mem_singleton] at small
    have front : ofDigits base digits + 1 ≤ base ^ digits.length := ih small.1
    calc
      ofDigits base (digits ++ [last]) < base * (ofDigits base digits + 1) := by
        rw [ofDigits_concat, Nat.mul_succ]
        exact Nat.add_lt_add_left small.2 _
      _ ≤ base * base ^ digits.length := Nat.mul_le_mul_left base front
      _ = base ^ (digits ++ [last]).length := by
        rw [List.length_append, List.length_singleton, Nat.pow_succ, Nat.mul_comm]

/-- A text of some characters spells a number of at most as many digits. -/
theorem value_lt {cs : List Char} {count : Nat} (few : cs.length ≤ count) :
    value cs < 10 ^ count := by
  have small : ∀ digit ∈ cs.filterMap Text.digitValue?, digit < 10 := by
    intro digit member
    rcases List.mem_filterMap.mp member with ⟨c, -, read⟩
    exact digitValue?_lt read
  calc
    value cs < 10 ^ (cs.filterMap Text.digitValue?).length := ofDigits_lt small
    _ ≤ 10 ^ count :=
      Nat.pow_le_pow_right (by decide) (Nat.le_trans (List.length_filterMap_le _ _) few)

theorem length_le_of_isRun {least most : Nat} {cs : List Char} (run : isRun least most cs = true) :
    cs.length ≤ most := by
  simp only [isRun, Bool.and_eq_true, decide_eq_true_eq] at run
  exact run.2

end LedgerQuery.Numeral
