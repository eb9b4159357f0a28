import LedgerQuery.Proofs.Numeral.Bound
import LedgerQuery.Proofs.Text.Hex

/-!
# Octets as numbers

Bytes are the digits of a number in base 256, and hexadecimal digits are read as
bytes in pairs, with white space allowed between the pairs.  The bytes spell the
number that the digits spell, and bytes are found again in their number as far
as their count is known.
-/

namespace LedgerQuery.Text.Hex

open Numeral (ofDigits ofDigits_append ofDigits_lt)

/-! ## Bytes of a number -/

/-- The last `count` bytes of a number, most significant byte first. -/
def wordBytes : (count : Nat) → Nat → List UInt8
  | 0, _ => []
  | count + 1, n => wordBytes count (n / 256) ++ [UInt8.ofNat n]

theorem bigEndian_eq (bytes : List UInt8) :
    bigEndian bytes = ofDigits 256 (bytes.map UInt8.toNat) := by
  rw [bigEndian, ofDigits, List.foldl_map]

theorem bigEndian_append (front back : List UInt8) :
    bigEndian (front ++ back) = bigEndian front * 256 ^ back.length + bigEndian back := by
  rw [bigEndian_eq, List.map_append, ofDigits_append, List.length_map, ← bigEndian_eq,
    ← bigEndian_eq]

theorem bigEndian_cons (byte : UInt8) (bytes : List UInt8) :
    bigEndian (byte :: bytes) = byte.toNat * 256 ^ bytes.length + bigEndian bytes := by
  have first : bigEndian [byte] = byte.toNat := by
    rw [bigEndian_eq, List.map_singleton, ofDigits, List.foldl_cons, List.foldl_nil, Nat.mul_zero,
      Nat.zero_add]
  rw [← List.singleton_append, bigEndian_append, first]

theorem bigEndian_lt (bytes : List UInt8) : bigEndian bytes < 256 ^ bytes.length := by
  have small : ∀ digit ∈ bytes.map UInt8.toNat, digit < 256 := by
    rw [List.forall_mem_map]
    intro byte _
    exact byte.toNat_lt
  rw [bigEndian_eq, ← List.length_map UInt8.toNat]
  exact ofDigits_lt small

theorem bigEndian_replicate_append (count : Nat) (bytes : List UInt8) :
    bigEndian (List.replicate count 0 ++ bytes) = bigEndian bytes := by
  induction count with
  | zero => rfl
  | succ count ih => exact ih

theorem bigEndian_dropWhile_zero (bytes : List UInt8) :
    bigEndian (bytes.dropWhile (· == 0)) = bigEndian bytes := by
  induction bytes with
  | nil => rfl
  | cons byte bytes ih =>
    rw [List.dropWhile_cons]
    split
    · next zero =>
      rw [eq_of_beq zero, ih]
      exact (bigEndian_replicate_append 1 bytes).symm
    · rfl

@[simp]
theorem length_wordBytes (count n : Nat) : (wordBytes count n).length = count := by
  induction count generalizing n with
  | zero => rfl
  | succ count ih => rw [wordBytes, List.length_append, ih, List.length_singleton]

/-- A number is found again in its bytes where there are enough of them. -/
theorem bigEndian_wordBytes {count n : Nat} (fits : n < 256 ^ count) :
    bigEndian (wordBytes count n) = n := by
  induction count generalizing n with
  | zero =>
    have zero : n = 0 := by simpa using fits
    rw [zero]
    rfl
  | succ count ih =>
    have quotient : n / 256 < 256 ^ count := by
      apply Nat.div_lt_of_lt_mul
      rwa [← Nat.pow_succ']
    have last : bigEndian [UInt8.ofNat n] = n % 256 := by
      rw [bigEndian_cons, UInt8.toNat_ofNat']
      exact Nat.mul_one _
    rw [wordBytes, bigEndian_append, ih quotient, last, List.length_singleton]
    omega

/-- Bytes are found again in their number. -/
theorem wordBytes_bigEndian (bytes : List UInt8) :
    wordBytes bytes.length (bigEndian bytes) = bytes := by
  induction bytes using List.reverseRecOn with
  | nil => rfl
  | append_singleton bytes last ih =>
    have small : last.toNat < 256 := last.toNat_lt
    have whole : bigEndian (bytes ++ [last]) = 256 * bigEndian bytes + last.toNat := by
      rw [bigEndian_eq, List.map_append, List.map_singleton, Numeral.ofDigits_concat,
        ← bigEndian_eq]
    have quotient : (256 * bigEndian bytes + last.toNat) / 256 = bigEndian bytes := by omega
    have lastByte : UInt8.ofNat (256 * bigEndian bytes + last.toNat) = last := by
      apply UInt8.toNat_inj.mp
      rw [UInt8.toNat_ofNat']
      omega
    rw [List.length_append, List.length_singleton, whole, wordBytes, quotient, ih, lastByte]

/-- Bytes are filled up with zeros in front. -/
theorem wordBytes_bigEndian_of_le {bytes : List UInt8} {count : Nat}
    (few : bytes.length ≤ count) :
    wordBytes count (bigEndian bytes) =
      List.replicate (count - bytes.length) 0 ++ bytes := by
  have filled :=
    wordBytes_bigEndian (List.replicate (count - bytes.length) 0 ++ bytes)
  rwa [List.length_append, List.length_replicate, Nat.sub_add_cancel few,
    bigEndian_replicate_append] at filled

/-! ## Digits -/

/-- The number that hexadecimal digits spell; other characters do not count. -/
def number (cs : List Char) : Nat :=
  ofDigits 16 (cs.filterMap value?)

/-- The digits stand in three rows, each with its values in a row. -/
theorem value?_cases {c : Char} {value : Nat} (read : value? c = some value) :
    48 ≤ c.toNat ∧ c.toNat ≤ 57 ∧ value = c.toNat - 48 ∨
      97 ≤ c.toNat ∧ c.toNat ≤ 102 ∧ value = c.toNat - 87 ∨
        65 ≤ c.toNat ∧ c.toNat ≤ 70 ∧ value = c.toNat - 55 := by
  rw [value?] at read
  split at read
  · next isDecimal =>
    cases read
    exact Or.inl ⟨isDecimal.1, isDecimal.2, rfl⟩
  · split at read
    · next isSmall =>
      cases read
      exact Or.inr (Or.inl ⟨isSmall.1, isSmall.2, rfl⟩)
    · split at read
      · next isCapital =>
        cases read
        exact Or.inr (Or.inr ⟨isCapital.1, isCapital.2, rfl⟩)
      · cases read

theorem value?_lt {c : Char} {value : Nat} (read : value? c = some value) : value < 16 := by
  have cases := value?_cases read
  omega

theorem value?_pos {c : Char} {value : Nat} (read : value? c = some value) (other : c ≠ '0') :
    0 < value := by
  have cases := value?_cases read
  have notZero : c.toNat ≠ 48 := fun same => other (Char.toNat_inj.mp same)
  omega

theorem exists_value? {c : Char} (isHex : isDigit c = true) : ∃ value, value? c = some value :=
  Option.isSome_iff_exists.mp isHex

theorem isDigit_of_value? {c : Char} {value : Nat} (read : value? c = some value) :
    isDigit c = true :=
  Option.isSome_iff_exists.mpr ⟨value, read⟩

theorem toNat_of_isGap {c : Char} (gap : isGap c = true) : c.toNat ≤ 32 := by
  rw [isGap, Bool.or_eq_true, Bool.and_eq_true, decide_eq_true_eq, decide_eq_true_eq,
    beq_iff_eq] at gap
  omega

/-- White space is no digit. -/
theorem value?_of_isGap {c : Char} (gap : isGap c = true) : value? c = none := by
  rw [← Option.not_isSome_iff_eq_none]
  intro isHex
  have low := toNat_of_isGap gap
  have range := isDigit_iff.mp isHex
  omega

theorem number_zeros_append (count : Nat) (cs : List Char) :
    number (List.replicate count '0' ++ cs) = number cs := by
  induction count with
  | zero => rfl
  | succ count ih => exact ih

theorem number_dropWhile_zero (cs : List Char) :
    number (cs.dropWhile (· == '0')) = number cs := by
  induction cs with
  | nil => rfl
  | cons c cs ih =>
    rw [List.dropWhile_cons]
    split
    · next zero =>
      rw [eq_of_beq zero, ih]
      exact (number_zeros_append 1 cs).symm
    · rfl

theorem length_filterMap_of_isDigit {cs : List Char} (digits : ∀ c ∈ cs, isDigit c = true) :
    (cs.filterMap value?).length = cs.length :=
  List.filterMap_length_eq_length.mpr digits

theorem number_lt (cs : List Char) : number cs < 16 ^ cs.length := by
  have small : ∀ value ∈ cs.filterMap value?, value < 16 := by
    intro value member
    rcases List.mem_filterMap.mp member with ⟨c, -, read⟩
    exact value?_lt read
  calc
    number cs < 16 ^ (cs.filterMap value?).length := ofDigits_lt small
    _ ≤ 16 ^ cs.length := Nat.pow_le_pow_right (by decide) (List.length_filterMap_le _ _)

/-- A first digit other than zero makes a number as great as its place. -/
theorem le_number_cons {c : Char} {cs : List Char} {value : Nat} (read : value? c = some value)
    (positive : 0 < value) (digits : ∀ d ∈ cs, isDigit d = true) :
    16 ^ cs.length ≤ number (c :: cs) := by
  have first : ofDigits 16 [value] = value := by
    rw [ofDigits, List.foldl_cons, List.foldl_nil, Nat.mul_zero, Nat.zero_add]
  rw [number, List.filterMap_cons_some read, ← List.singleton_append, ofDigits_append, first,
    length_filterMap_of_isDigit digits]
  exact Nat.le_add_right_of_le (Nat.le_mul_of_pos_left _ positive)

/-! ## Pairs of digits -/

/-- A text spells bytes: each byte has two digits, and white space may stand between the pairs. -/
inductive SpellsBytes : List Char → List UInt8 → Prop where
  | done : SpellsBytes [] []
  | gap {c : Char} {cs : List Char} {bytes : List UInt8} (isGap : isGap c = true)
      (rest : SpellsBytes cs bytes) : SpellsBytes (c :: cs) bytes
  | pair {c d : Char} {high low : Nat} {cs : List Char} {bytes : List UInt8}
      (isHigh : value? c = some high) (isLow : value? d = some low)
      (rest : SpellsBytes cs bytes) :
      SpellsBytes (c :: d :: cs) (UInt8.ofNat (16 * high + low) :: bytes)

section Spelled

variable {cs : List Char} {bytes : List UInt8}

theorem readFrom_eq_ok_iff (position : Nat) :
    readFrom position cs = .ok bytes ↔ SpellsBytes cs bytes := by
  constructor
  · intro read
    fun_induction readFrom position cs generalizing bytes with
    | case1 =>
      cases read
      exact .done
    | case2 position c cs gap ih => exact .gap gap (ih read)
    | case3 => cases read
    | case4 => cases read
    | case5 => cases read
    | case6 position c noGap high d rest isHigh low isLow ih =>
      cases tail : readFrom (position + 2) rest with
      | error fault =>
        rw [tail] at read
        cases read
      | ok others =>
        rw [tail] at read
        cases read
        exact .pair isHigh isLow (ih tail)
  · intro spelled
    induction spelled generalizing position with
    | done => rfl
    | gap gap _ ih =>
      rw [readFrom.eq_def]
      dsimp only
      rw [if_pos gap, ih]
    | pair isHigh isLow _ ih =>
      have noGap : ¬isGap _ = true := fun gap => by
        rw [value?_of_isGap gap] at isHigh
        cases isHigh
      rw [readFrom.eq_def]
      dsimp only
      rw [if_neg noGap, isHigh]
      dsimp only
      rw [isLow]
      dsimp only
      rw [ih]
      rfl

theorem SpellsBytes.isAscii (spelled : SpellsBytes cs bytes) : ∀ c ∈ cs, c.toNat < 128 := by
  induction spelled with
  | done => exact List.forall_mem_nil _
  | gap gap _ ih =>
    exact List.forall_mem_cons.mpr ⟨Nat.lt_of_le_of_lt (toNat_of_isGap gap) (by decide), ih⟩
  | pair isHigh isLow _ ih =>
    rw [List.forall_mem_cons, List.forall_mem_cons]
    exact ⟨toNat_lt_of_isDigit (isDigit_of_value? isHigh),
      toNat_lt_of_isDigit (isDigit_of_value? isLow), ih⟩

/-- The reader finds in a text the bytes that it spells. -/
theorem read_eq_ok_iff : read cs = .ok bytes ↔ SpellsBytes cs bytes := by
  rw [← readFrom_eq_ok_iff 0, read]
  split
  · next position found =>
    apply iff_of_false
    · intro impossible
      cases impossible
    · intro whole
      have ascii := ((readFrom_eq_ok_iff 0).mp whole).isAscii
      rcases List.findIdx?_eq_some_iff_findIdx_eq.mp found with ⟨inside, isFirst⟩
      have beyond := List.findIdx_getElem (w := isFirst ▸ inside)
      have within := ascii _ (List.getElem_mem (isFirst ▸ inside))
      rw [decide_eq_true_eq] at beyond
      omega
  · exact Iff.rfl

theorem SpellsBytes.length_filterMap (spelled : SpellsBytes cs bytes) :
    (cs.filterMap value?).length = 2 * bytes.length := by
  induction spelled with
  | done => rfl
  | gap gap _ ih => rw [List.filterMap_cons_none (value?_of_isGap gap), ih]
  | pair isHigh isLow _ ih =>
    rw [List.filterMap_cons_some isHigh, List.filterMap_cons_some isLow, List.length_cons,
      List.length_cons, ih, List.length_cons]
    omega

/-- Bytes spell the number that their digits spell. -/
theorem SpellsBytes.bigEndian_eq (spelled : SpellsBytes cs bytes) :
    bigEndian bytes = number cs := by
  induction spelled with
  | done => rfl
  | gap gap _ ih => rw [number, List.filterMap_cons_none (value?_of_isGap gap), ih, number]
  | @pair c d high low cs bytes isHigh isLow rest ih =>
    have highSmall := value?_lt isHigh
    have lowSmall := value?_lt isLow
    have byte : (UInt8.ofNat (16 * high + low)).toNat = 16 * high + low := by
      apply UInt8.toNat_ofNat_of_lt
      rw [UInt8.size]
      omega
    have first : ofDigits 16 [high, low] = 16 * high + low := by
      simp [ofDigits]
    have places : 16 ^ (2 * bytes.length) = 256 ^ bytes.length := by
      rw [Nat.pow_mul]
    calc
      bigEndian (UInt8.ofNat (16 * high + low) :: bytes) =
          (16 * high + low) * 256 ^ bytes.length + number cs := by
        rw [bigEndian_cons, byte, ih]
      _ = ofDigits 16 ([high, low] ++ cs.filterMap value?) := by
        rw [ofDigits_append, first, rest.length_filterMap, places, number]
      _ = number (c :: d :: cs) := by
        rw [number, List.filterMap_cons_some isHigh, List.filterMap_cons_some isLow]
        rfl

/-- An even number of digits spells bytes. -/
theorem exists_spellsBytes {count : Nat} (digits : ∀ c ∈ cs, isDigit c = true)
    (length : cs.length = 2 * count) :
    ∃ bytes, SpellsBytes cs bytes := by
  induction count generalizing cs with
  | zero =>
    rw [List.length_eq_zero_iff.mp length]
    exact ⟨[], .done⟩
  | succ count ih =>
    rcases List.exists_cons_of_length_eq_add_one length with ⟨c, tail, rfl⟩
    rcases List.exists_cons_of_length_eq_add_one (Nat.succ.inj length) with ⟨d, rest, rfl⟩
    rw [List.forall_mem_cons, List.forall_mem_cons] at digits
    rcases exists_value? digits.1 with ⟨high, isHigh⟩
    rcases exists_value? digits.2.1 with ⟨low, isLow⟩
    rcases ih digits.2.2 (by simpa [Nat.mul_add] using length) with ⟨bytes, spelled⟩
    exact ⟨_, .pair isHigh isLow spelled⟩

end Spelled

end LedgerQuery.Text.Hex
