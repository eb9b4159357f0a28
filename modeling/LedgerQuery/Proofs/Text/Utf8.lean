import LedgerQuery.Text.Utf8

/-!
# Reading UTF-8 back

The octets of a character are recognised whatever follows them, so the octets of
a text are read as that text.
-/

namespace LedgerQuery.Text.Utf8

/-! ## The octets of one character -/

theorem lt_of_isValidChar
    {n : Nat}
    (valid : n.isValidChar) :
    n < 0x110000 := by
  rcases valid with low | ⟨-, high⟩ <;> omega

theorem two?_octets
    {n : Nat}
    (low : 0x80 ≤ n) (high : n < 0x800) :
    two? (0xC0 + n / 0x40) (0x80 + n % 0x40) = some n := by
  have whole : (0xC0 + n / 0x40 - 0xC0) * 0x40 + (0x80 + n % 0x40 - 0x80) = n := by omega
  simp only [two?, isTail, whole, Bool.and_eq_true, decide_eq_true_eq]
  exact if_pos (by omega)

theorem two?_eq_none
    {a : Nat} (b : Nat)
    (high : 0xE0 ≤ a) :
    two? a b = none :=
  if_neg (by omega)

theorem three?_octets
    {n : Nat}
    (low : 0x800 ≤ n) (high : n < 0x10000) (valid : n.isValidChar) :
    three? (0xE0 + n / 0x1000) (0x80 + n / 0x40 % 0x40) (0x80 + n % 0x40) = some n := by
  have whole : (0xE0 + n / 0x1000 - 0xE0) * 0x1000 + (0x80 + n / 0x40 % 0x40 - 0x80) * 0x40 +
      (0x80 + n % 0x40 - 0x80) = n := by omega
  simp only [three?, isTail, whole, Bool.and_eq_true, decide_eq_true_eq]
  exact if_pos ⟨by omega, by omega, by omega, by omega, low, valid⟩

theorem three?_eq_none
    {a : Nat} (b c : Nat)
    (high : 0xF0 ≤ a) :
    three? a b c = none :=
  if_neg (by omega)

theorem four?_octets
    {n : Nat}
    (low : 0x10000 ≤ n) (valid : n.isValidChar) :
    four? (0xF0 + n / 0x40000) (0x80 + n / 0x1000 % 0x40) (0x80 + n / 0x40 % 0x40)
      (0x80 + n % 0x40) = some n := by
  have high : n < 0x110000 := lt_of_isValidChar valid
  have whole : (0xF0 + n / 0x40000 - 0xF0) * 0x40000 + (0x80 + n / 0x1000 % 0x40 - 0x80) * 0x1000 +
      (0x80 + n / 0x40 % 0x40 - 0x80) * 0x40 + (0x80 + n % 0x40 - 0x80) = n := by omega
  simp only [four?, isTail, whole, Bool.and_eq_true, decide_eq_true_eq]
  exact if_pos ⟨by omega, by omega, by omega, by omega, by omega, low, valid⟩

/-- The octets of a character are recognised in front of any others. -/
theorem first_octets (c : Char) (rest : List Nat) :
    ∃ a tail, octets c.toNat = a :: tail ∧ first a (tail ++ rest) = (c, tail.length) := by
  have valid : c.toNat.isValidChar := c.valid
  have same : Char.ofNat c.toNat = c := c.ofNat_toNat
  by_cases one : c.toNat < 0x80
  · exact ⟨_, _, if_pos one, by simp [first, one, same]⟩
  by_cases two : c.toNat < 0x800
  · have notOne : ¬0xC0 + c.toNat / 0x40 < 0x80 := by omega
    refine ⟨0xC0 + c.toNat / 0x40, [0x80 + c.toNat % 0x40], by simp [octets, one, two], ?_⟩
    simp [first, notOne, two?_octets (Nat.le_of_not_lt one) two, same]
  by_cases three : c.toNat < 0x10000
  · have notOne : ¬0xE0 + c.toNat / 0x1000 < 0x80 := by omega
    have notTwo := two?_eq_none (a := 0xE0 + c.toNat / 0x1000) (0x80 + c.toNat / 0x40 % 0x40)
      (by omega)
    refine ⟨0xE0 + c.toNat / 0x1000, [0x80 + c.toNat / 0x40 % 0x40, 0x80 + c.toNat % 0x40],
      by simp [octets, one, two, three], ?_⟩
    simp [first, notOne, notTwo, three?_octets (Nat.le_of_not_lt two) three valid, same]
  · have notOne : ¬0xF0 + c.toNat / 0x40000 < 0x80 := by omega
    have notTwo := two?_eq_none (a := 0xF0 + c.toNat / 0x40000) (0x80 + c.toNat / 0x1000 % 0x40)
      (by omega)
    have notThree := three?_eq_none (a := 0xF0 + c.toNat / 0x40000)
      (0x80 + c.toNat / 0x1000 % 0x40) (0x80 + c.toNat / 0x40 % 0x40) (by omega)
    refine ⟨0xF0 + c.toNat / 0x40000,
      [0x80 + c.toNat / 0x1000 % 0x40, 0x80 + c.toNat / 0x40 % 0x40, 0x80 + c.toNat % 0x40],
      by simp [octets, one, two, three], ?_⟩
    simp [first, notOne, notTwo, notThree, four?_octets (Nat.le_of_not_lt three) valid, same]

theorem octet_lt
    {n octet : Nat}
    (valid : n.isValidChar)
    (member : octet ∈ octets n) :
    octet < 256 := by
  have high : n < 0x110000 := lt_of_isValidChar valid
  rw [octets] at member
  split at member
  · simp at member
    omega
  · split at member
    · simp at member
      omega
    · split at member
      · simp at member
        omega
      · simp at member
        omega

/-! ## The octets of a text -/

/-- Octets that are used up are passed over. -/
theorem decodeFrom_append (used rest : List Nat) :
    decodeFrom used.length (used ++ rest) = decodeFrom 0 rest := by
  induction used with
  | nil => rfl
  | cons a used ih => exact ih

/-- What was written is read back. -/
theorem decode_encode (cs : List Char) : decode (encode cs) = cs := by
  rw [decode]
  induction cs with
  | nil => rfl
  | cons c cs ih =>
    rcases first_octets c (encode cs) with ⟨a, tail, written, recognised⟩
    have front : encode (c :: cs) = a :: (tail ++ encode cs) := by
      rw [encode, List.flatMap_cons, written]
      rfl
    rw [front, decodeFrom, recognised, decodeFrom_append, ih]

end LedgerQuery.Text.Utf8
