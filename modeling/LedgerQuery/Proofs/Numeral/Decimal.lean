import LedgerQuery.Numeral.Decimal
import Mathlib.Data.List.Basic

/-!
# Decimal numerals of written numbers

A digit belongs to the ASCII block or to the ten digits of another script.  A
number is written with the digits of the ASCII block and is the value of what is
written.
-/

namespace LedgerQuery.Numeral

/-- A digit belongs to the ASCII block or to the ten digits of another script. -/
theorem toNat_of_isDigit {c : Char} (digit : Text.isDigit c = true) :
    (48 ≤ c.toNat ∧ c.toNat ≤ 57) ∨
      ¬c.toNat < 128 ∧
        ∃ first ∈ Text.digitZeros, first ≤ c.toNat ∧ c.toNat < first + 10 := by
  rw [Text.isDigit, Text.digitValue?] at digit
  split at digit
  · split at digit
    · next ascii =>
      exact Or.inl (Char.isDigit_iff_toNat.mp ascii)
    · cases digit
  · next notAscii =>
    rw [Option.isSome_map, Option.isSome_iff_exists] at digit
    rcases digit with ⟨first, found⟩
    have inside := List.find?_some found
    simp only [Bool.and_eq_true, decide_eq_true_eq] at inside
    exact Or.inr ⟨notAscii, first, List.mem_of_find?_eq_some found, inside⟩

theorem decimal_ne_nil (n : Nat) : decimal n ≠ [] :=
  Nat.toDigits_ne_nil

theorem toNat_of_mem_decimal
    {n : Nat} {c : Char}
    (member : c ∈ decimal n) :
    48 ≤ c.toNat ∧ c.toNat ≤ 57 := by
  have ascii : c.isDigit = true :=
    Nat.isDigit_of_mem_toDigits (by decide) (by decide) member
  exact Char.isDigit_iff_toNat.mp ascii

theorem digitValue?_of_mem_decimal
    {n : Nat} {c : Char}
    (member : c ∈ decimal n) :
    Text.digitValue? c = some (c.toNat - 48) := by
  have ascii : c.isDigit = true :=
    Nat.isDigit_of_mem_toDigits (by decide) (by decide) member
  have small : c.toNat < 128 := by
    have bounds := toNat_of_mem_decimal member
    omega
  rw [Text.digitValue?, if_pos small, if_pos ascii]

theorem isDigit_of_mem_decimal
    {n : Nat} {c : Char}
    (member : c ∈ decimal n) :
    Text.isDigit c = true := by
  rw [Text.isDigit, digitValue?_of_mem_decimal member]
  rfl

/-- A number is the value of its digits. -/
theorem value_decimal (n : Nat) : value (decimal n) = n := by
  have values : (decimal n).filterMap Text.digitValue? =
      (decimal n).map fun c => c.toNat - 48 :=
    List.filterMap_eq_map_iff_forall_eq_some.mpr fun _ member => digitValue?_of_mem_decimal member
  calc
    value (decimal n) = Nat.ofDigitChars 10 (decimal n) 0 := by
      rw [value, ofDigits, values, List.foldl_map, Nat.ofDigitChars_eq_foldl]
      rfl
    _ = n := Nat.ofDigitChars_ten_toDigits

end LedgerQuery.Numeral
