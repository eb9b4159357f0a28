import LedgerQuery.Proofs.Numeral.Bound
import LedgerQuery.Proofs.Numeral.Literal

/-!
# Runs of digits

A run of digits of a limited length spells a number below a power of ten, and a
number below it is written as such a run.  Zeros in front of a run do not change
its number, and zeros behind it multiply the number by powers of ten.
-/

namespace LedgerQuery.Numeral

/-! ## The digits of a run -/

section Run

variable {least most : Nat} {cs : List Char}

theorem isDigit_of_isRun (run : isRun least most cs = true) : ∀ c ∈ cs, Text.isDigit c = true := by
  simp only [isRun, Bool.and_eq_true] at run
  exact List.all_eq_true.mp run.1.1

theorem notMem_of_isRun
    (run : isRun least most cs = true) {c : Char} (other : Text.isDigit c = false) : c ∉ cs :=
  notMem_of_isDigit (isDigit_of_isRun run) other

theorem isRun_of_isDigit
    (digits : ∀ c ∈ cs, Text.isDigit c = true)
    (enough : least ≤ cs.length) (few : cs.length ≤ most) :
    isRun least most cs = true := by
  rw [isRun, List.all_eq_true.mpr digits, decide_eq_true enough, decide_eq_true few]
  rfl

end Run

/-! ## Written numbers -/

theorem length_decimal_pos (n : Nat) : 1 ≤ (decimal n).length :=
  List.length_pos_of_ne_nil (decimal_ne_nil n)

theorem length_decimal_le_iff {n most : Nat} (positive : 0 < most) :
    (decimal n).length ≤ most ↔ n < 10 ^ most :=
  Nat.length_toDigits_le_iff (by decide) positive

/-- A number is written as a run of at most so many digits exactly when it has no more. -/
theorem isRun_decimal_iff {n most : Nat} (positive : 0 < most) :
    isRun 1 most (decimal n) = true ↔ n < 10 ^ most := by
  rw [← length_decimal_le_iff positive]
  constructor
  · exact length_le_of_isRun
  · exact isRun_of_isDigit (fun _ => isDigit_of_mem_decimal) (length_decimal_pos n)

/-- An integer with a sign is written as no run. -/
theorem isRun_signedDecimal_iff {n : Int} {most : Nat} (positive : 0 < most) :
    isRun 1 most (signedDecimal n) = true ↔ 0 ≤ n ∧ n < (10 ^ most : Nat) := by
  rw [signedDecimal_eq]
  by_cases negative : n < 0
  · rw [if_pos negative]
    apply iff_of_false
    · intro run
      exact notMem_of_isRun run (by decide : Text.isDigit '-' = false) List.mem_cons_self
    · omega
  · rw [if_neg negative, List.nil_append, isRun_decimal_iff positive]
    omega

theorem value_signedDecimal {n : Int} (nonneg : 0 ≤ n) : (value (signedDecimal n) : Int) = n := by
  rw [signedDecimal_eq, if_neg (Int.not_lt.mpr nonneg), List.nil_append, value_decimal]
  exact Int.natAbs_of_nonneg nonneg

/-- A text that ends in a written number is a line by itself. -/
theorem line_append_decimal (front : List Char) (n : Nat) :
    Text.line (front ++ decimal n) = front ++ decimal n := by
  apply Text.line_eq_self
  intro last
  rw [List.getLast?_append_of_ne_nil _ (decimal_ne_nil n)] at last
  have digit := isDigit_of_mem_decimal (List.mem_of_getLast? last)
  exact absurd digit (by decide)

theorem line_writeInt (n : Int) : Text.line (writeInt n).toList = signedDecimal n := by
  rw [toList_writeInt, signedDecimal_eq, line_append_decimal]

/-! ## Zeros in front and behind -/

/-- Digits behind others leave these at a higher place. -/
theorem value_append
    (cs : List Char) {ds : List Char} (digits : ∀ d ∈ ds, Text.isDigit d = true) :
    value (cs ++ ds) = value cs * 10 ^ ds.length + value ds := by
  have places : (ds.filterMap Text.digitValue?).length = ds.length :=
    List.filterMap_length_eq_length.mpr digits
  rw [value, List.filterMap_append, ofDigits_append, places]
  rfl

theorem value_zeros_append (count : Nat) (cs : List Char) :
    value (List.replicate count '0' ++ cs) = value cs := by
  induction count with
  | zero => rfl
  | succ count ih => exact ih

/-- A number has a zero in front only where it is zero. -/
theorem head?_decimal_ne_zero {n : Nat} (positive : 0 < n) : (decimal n).head? ≠ some '0' := by
  intro zero
  obtain ⟨rest, written⟩ := List.head?_eq_some_iff.mp zero
  have same : value rest = n := by
    rw [← value_decimal n, written]
    exact (value_zeros_append 1 rest).symm
  have few : n < 10 ^ rest.length := same ▸ value_lt le_rfl
  by_cases more : 0 < rest.length
  · have shorter := (length_decimal_le_iff more).mpr few
    rw [written, List.length_cons] at shorter
    omega
  · rw [Nat.eq_zero_of_not_pos more] at few
    omega

theorem value_append_zeros (cs : List Char) (count : Nat) :
    value (cs ++ List.replicate count '0') = value cs * 10 ^ count := by
  have zeros : value (List.replicate count '0') = 0 := by
    rw [← List.append_nil (List.replicate count '0'), value_zeros_append]
    rfl
  have digits : ∀ d ∈ List.replicate count '0', Text.isDigit d = true := by
    intro d member
    rw [List.eq_of_mem_replicate member]
    rfl
  rw [value_append cs digits, zeros, List.length_replicate, Nat.add_zero]

theorem value_padded (width n : Nat) : value (padded width n) = n := by
  rw [padded, value_zeros_append, value_decimal]

theorem length_padded {width n : Nat} (positive : 0 < width) (fits : n < 10 ^ width) :
    (padded width n).length = width := by
  have few := (length_decimal_le_iff positive).mpr fits
  rw [padded, List.length_append, List.length_replicate]
  exact Nat.sub_add_cancel few

theorem isDigit_of_mem_padded {width n : Nat} {c : Char} (member : c ∈ padded width n) :
    Text.isDigit c = true := by
  rcases List.mem_append.mp member with zero | digit
  · rw [List.eq_of_mem_replicate zero]
    rfl
  · exact isDigit_of_mem_decimal digit

end LedgerQuery.Numeral
