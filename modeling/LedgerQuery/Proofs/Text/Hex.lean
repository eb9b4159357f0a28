import LedgerQuery.Text.Hex

/-!
# Hexadecimal digits

Bytes are written in digits, two for each byte, and the case of a letter does not decide whether it
is a digit.
-/

namespace LedgerQuery.Text.Hex

theorem isDigit_iff {c : Char} :
    isDigit c = true ↔
      48 ≤ c.toNat ∧ c.toNat ≤ 57 ∨ 97 ≤ c.toNat ∧ c.toNat ≤ 102 ∨
        65 ≤ c.toNat ∧ c.toNat ≤ 70 := by
  have decimal : '0' ≤ c ∧ c ≤ '9' ↔ 48 ≤ c.toNat ∧ c.toNat ≤ 57 := Iff.rfl
  have small : 'a' ≤ c ∧ c ≤ 'f' ↔ 97 ≤ c.toNat ∧ c.toNat ≤ 102 := Iff.rfl
  have capital : 'A' ≤ c ∧ c ≤ 'F' ↔ 65 ≤ c.toNat ∧ c.toNat ≤ 70 := Iff.rfl
  rw [← decimal, ← small, ← capital, isDigit, value?]
  by_cases isDecimal : '0' ≤ c ∧ c ≤ '9'
  · simp [isDecimal]
  · by_cases isSmall : 'a' ≤ c ∧ c ≤ 'f'
    · simp [isDecimal, isSmall]
    · by_cases isCapital : 'A' ≤ c ∧ c ≤ 'F' <;> simp [isDecimal, isSmall, isCapital]

theorem toNat_toLower (c : Char) :
    c.toLower.toNat = if 65 ≤ c.toNat ∧ c.toNat ≤ 90 then c.toNat + 32 else c.toNat := by
  have capital : (c.val ≥ 'A'.val ∧ c.val ≤ 'Z'.val) ↔ 65 ≤ c.toNat ∧ c.toNat ≤ 90 := Iff.rfl
  show (if isCapital : c.val ≥ 'A'.val ∧ c.val ≤ 'Z'.val then Char.mk _ _ else c).toNat = _
  split
  · next isCapital =>
    have range := capital.mp isCapital
    have noWrap : (c.val + ('a'.val - 'A'.val)).toNat = (c.toNat + 32) % 2 ^ 32 :=
      UInt32.toNat_add ..
    rw [if_pos range, Char.toNat, noWrap]
    omega
  · next notCapital => rw [if_neg (mt capital.mpr notCapital)]

@[simp]
theorem isDigit_toLower (c : Char) : isDigit c.toLower = isDigit c := by
  rw [Bool.eq_iff_iff, isDigit_iff, isDigit_iff, toNat_toLower]
  split <;> omega

theorem isDigit_digit {value : Nat} (small : value < 16) : isDigit (digit value) = true := by
  have all : ∀ value < 16, isDigit (digit value) = true := by
    decide
  exact all value small

theorem isDigit_of_mem_ofByte {byte : UInt8} {c : Char} (member : c ∈ ofByte byte) :
    isDigit c = true := by
  have size : byte.toNat < 256 := byte.toNat_lt
  rw [ofByte, List.mem_cons, List.mem_singleton] at member
  rcases member with rfl | rfl
  · exact isDigit_digit (by omega)
  · exact isDigit_digit (by omega)

/-- Bytes are written in digits. -/
theorem isDigit_of_mem_ofBytes {bytes : List UInt8} {c : Char} (member : c ∈ ofBytes bytes) :
    isDigit c = true := by
  rcases List.mem_flatMap.mp member with ⟨byte, -, inside⟩
  exact isDigit_of_mem_ofByte inside

/-- Each byte takes two digits. -/
@[simp]
theorem length_ofBytes (bytes : List UInt8) : (ofBytes bytes).length = 2 * bytes.length := by
  induction bytes with
  | nil => rfl
  | cons byte bytes ih =>
    have two : (ofByte byte).length = 2 := rfl
    rw [ofBytes, List.flatMap_cons, List.length_append, two, ← ofBytes, ih, List.length_cons]
    omega

theorem toLower_digit {value : Nat} (small : value < 16) : (digit value).toLower = digit value := by
  have all : ∀ value < 16, (digit value).toLower = digit value := by
    decide
  exact all value small

/-- Bytes are written without capital letters. -/
theorem toLower_of_mem_ofBytes {bytes : List UInt8} {c : Char} (member : c ∈ ofBytes bytes) :
    c.toLower = c := by
  rcases List.mem_flatMap.mp member with ⟨byte, -, inside⟩
  have size : byte.toNat < 256 := byte.toNat_lt
  rw [ofByte, List.mem_cons, List.mem_singleton] at inside
  rcases inside with rfl | rfl
  · exact toLower_digit (by omega)
  · exact toLower_digit (by omega)

/-! ## Digits are written bytes -/

theorem toNat_lt_of_isDigit {c : Char} (isHex : isDigit c = true) : c.toNat < 128 := by
  rcases isDigit_iff.mp isHex with range | range | range <;> omega

theorem exists_digit {c : Char} (isHex : isDigit c = true) :
    ∃ value < 16, digit value = c.toLower := by
  have all : ∀ n < 128, isDigit (Char.ofNat n) = true →
      ∃ value < 16, digit value = (Char.ofNat n).toLower := by
    decide
  have found := all c.toNat (toNat_lt_of_isDigit isHex)
  rw [Char.ofNat_toNat] at found
  exact found isHex

theorem ofByte_ofNat {high low : Nat} (highSmall : high < 16) (lowSmall : low < 16) :
    ofByte (UInt8.ofNat (16 * high + low)) = [digit high, digit low] := by
  have small : 16 * high + low < 256 := by omega
  have value : (UInt8.ofNat (16 * high + low)).toNat = 16 * high + low :=
    UInt8.toNat_ofNat_of_lt small
  have quotient : (16 * high + low) / 16 = high := by omega
  have remainder : (16 * high + low) % 16 = low := by omega
  rw [ofByte, value, quotient, remainder]

/-- An even number of digits are the written form of bytes but for the case of their letters. -/
theorem exists_ofBytes
    {cs : List Char} {count : Nat} (digits : ∀ c ∈ cs, isDigit c = true)
    (length : cs.length = 2 * count) :
    ∃ bytes, bytes.length = count ∧ cs.map Char.toLower = ofBytes bytes := by
  induction count generalizing cs with
  | zero =>
    rw [List.length_eq_zero_iff.mp length]
    exact ⟨[], rfl, rfl⟩
  | succ count ih =>
    rcases List.exists_cons_of_length_eq_add_one length with ⟨c, tail, rfl⟩
    rcases List.exists_cons_of_length_eq_add_one (Nat.succ.inj length) with ⟨d, rest, rfl⟩
    rw [List.forall_mem_cons, List.forall_mem_cons] at digits
    rcases exists_digit digits.1 with ⟨high, highSmall, isHigh⟩
    rcases exists_digit digits.2.1 with ⟨low, lowSmall, isLow⟩
    rcases ih digits.2.2 (by simpa [Nat.mul_add] using length) with ⟨bytes, size, written⟩
    refine ⟨UInt8.ofNat (16 * high + low) :: bytes, by rw [List.length_cons, size], ?_⟩
    rw [List.map_cons, List.map_cons, written, ofBytes, ofBytes, List.flatMap_cons,
      ofByte_ofNat highSmall lowSmall, isHigh, isLow]
    rfl

end LedgerQuery.Text.Hex
