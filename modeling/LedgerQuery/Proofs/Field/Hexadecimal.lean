import LedgerQuery.Field.Slot
import LedgerQuery.Proofs.Outcome
import LedgerQuery.Proofs.Text.Octets

/-!
# Texts of hexadecimal fields

Behind its mark a field is filled up to an even number of characters and read in
pairs of digits.  Every run of digits is read as its number in as many bytes as
it needs.  The main statement says that nothing else is read, with one exception:
white space may stand between the pairs.
-/

namespace LedgerQuery.Field

open Text.Hex (SpellsBytes bigEndian isDigit isGap number)

/-! ## Even numbers of digits -/

theorem length_evenLength (cs : List Char) :
    (evenLength cs).length = 2 * ((cs.length + 1) / 2) := by
  rw [evenLength]
  split
  · rw [List.length_cons]
    omega
  · omega

theorem number_evenLength (cs : List Char) : number (evenLength cs) = number cs := by
  rw [evenLength]
  split
  · exact Text.Hex.number_zeros_append 1 cs
  · rfl

/-- The zero in front is a digit, so a predicate of all digits holds of the filled text if it holds
of the text. -/
theorem forall_mem_evenLength_iff {cs : List Char} {p : Char → Prop} (zero : p '0') :
    (∀ c ∈ evenLength cs, p c) ↔ ∀ c ∈ cs, p c := by
  rw [evenLength]
  split
  · rw [List.forall_mem_cons, and_iff_right zero]
  · exact Iff.rfl

/-! ## Bytes of digits -/

section Bytes

variable {cs : List Char} {bytes : List UInt8}

theorem hexBytes_eq_ok_iff : hexBytes cs = .ok bytes ↔ SpellsBytes (evenLength cs) bytes := by
  rw [hexBytes, mapError_eq_ok, Text.Hex.read_eq_ok_iff]

/-- What spells no bytes is refused with the position of a character. -/
theorem exists_hexBytes_error (unread : ¬∃ bytes, SpellsBytes (evenLength cs) bytes) :
    ∃ position, hexBytes cs = .error (.unreadable (.hexadecimal position)) := by
  rw [hexBytes]
  cases read : Text.Hex.read (evenLength cs) with
  | error position => exact ⟨position, rfl⟩
  | ok bytes => exact absurd ⟨bytes, Text.Hex.read_eq_ok_iff.mp read⟩ unread

/-- Digits are read as their number, two in each byte. -/
theorem exists_hexBytes (digits : ∀ c ∈ cs, isDigit c = true) :
    ∃ bytes, hexBytes cs = .ok bytes ∧ bytes.length = (cs.length + 1) / 2 ∧
      bigEndian bytes = number cs := by
  have allDigits : ∀ c ∈ evenLength cs, isDigit c = true :=
    (forall_mem_evenLength_iff (by decide)).mpr digits
  have length := length_evenLength cs
  rcases Text.Hex.exists_spellsBytes allDigits length with ⟨bytes, spelled⟩
  have count := spelled.length_filterMap
  rw [Text.Hex.length_filterMap_of_isDigit allDigits] at count
  refine ⟨bytes, hexBytes_eq_ok_iff.mpr spelled, by omega, ?_⟩
  rw [spelled.bigEndian_eq, number_evenLength]

/-- A text without white space that spells bytes consists of digits. -/
theorem isDigit_of_spellsBytes
    (spelled : SpellsBytes cs bytes) (unspaced : ∀ c ∈ cs, isGap c = false) :
    ∀ c ∈ cs, isDigit c = true := by
  induction spelled with
  | done => exact List.forall_mem_nil _
  | gap gap _ _ =>
    have noGap := unspaced _ List.mem_cons_self
    rw [gap] at noGap
    cases noGap
  | pair isHigh isLow _ ih =>
    rw [List.forall_mem_cons, List.forall_mem_cons] at unspaced ⊢
    exact ⟨Text.Hex.isDigit_of_value? isHigh, Text.Hex.isDigit_of_value? isLow, ih unspaced.2.2⟩

end Bytes

/-! ## Fields -/

/-- A text consists of pairs of digits with white space between them. -/
def IsSpaced (cs : List Char) : Prop :=
  (∃ c ∈ cs, isGap c = true) ∧ ∃ bytes, SpellsBytes cs bytes

/-- A text that consists of digits behind its mark is read as their number in half as many bytes,
rounded up, and any other text is refused. -/
def ReadsDigits (s : String) : Prop :=
  let digits := withoutMark s.toList
  ((∀ c ∈ digits, isDigit c = true) ∧
      ∃ bytes, parseHex (.text s) = .ok bytes ∧ bytes.length = (digits.length + 1) / 2 ∧
        bigEndian bytes = number digits) ∨
    (¬∀ c ∈ digits, isDigit c = true) ∧
      ∃ position, parseHex (.text s) = .error (.unreadable (.hexadecimal position))

theorem not_isSpaced_of_isDigit {cs : List Char} (digits : ∀ c ∈ cs, isDigit c = true) :
    ¬IsSpaced cs := by
  rintro ⟨⟨c, member, gap⟩, -⟩
  rcases Text.Hex.exists_value? (digits c member) with ⟨value, read⟩
  rw [Text.Hex.value?_of_isGap gap] at read
  cases read

/--
A hexadecimal field is read exactly when it consists of digits behind its mark,
unless white space stands between pairs of digits, where the first digit of an
odd number of characters counts as a pair.
-/
theorem readsDigits_iff (s : String) :
    ReadsDigits s ↔ ¬IsSpaced (evenLength (withoutMark s.toList)) := by
  have read : parseHex (.text s) = hexBytes (withoutMark s.toList) := rfl
  rw [ReadsDigits, read]
  generalize withoutMark s.toList = digits
  by_cases allDigits : ∀ c ∈ digits, isDigit c = true
  · have filled : ∀ c ∈ evenLength digits, isDigit c = true :=
      (forall_mem_evenLength_iff (by decide)).mpr allDigits
    exact iff_of_true (Or.inl ⟨allDigits, exists_hexBytes allDigits⟩)
      (not_isSpaced_of_isDigit filled)
  · rw [or_iff_right (mt And.left allDigits), and_iff_right allDigits]
    constructor
    · rintro ⟨position, refused⟩ ⟨-, bytes, spelled⟩
      rw [hexBytes_eq_ok_iff.mpr spelled] at refused
      cases refused
    · intro notSpaced
      apply exists_hexBytes_error
      rintro ⟨bytes, spelled⟩
      have unspaced : ∀ c ∈ evenLength digits, isGap c = false := by
        intro c member
        rw [← Bool.not_eq_true]
        exact fun gap => notSpaced ⟨⟨c, member, gap⟩, bytes, spelled⟩
      exact allDigits
        ((forall_mem_evenLength_iff (by decide)).mp (isDigit_of_spellsBytes spelled unspaced))

/-- Two spaces between two pairs of digits are passed over. -/
theorem readsDigits_refuted :
    parseHex (.text "ab  cd") = .ok [0xab, 0xcd] ∧ ¬ReadsDigits "ab  cd" := by
  have read : parseHex (.text "ab  cd") = .ok [0xab, 0xcd] := by cbv
  refine ⟨read, ?_⟩
  rintro (⟨digits, -⟩ | ⟨-, position, refused⟩)
  · exact absurd (digits ' ' (by decide)) (by decide)
  · rw [read] at refused
    cases refused

end LedgerQuery.Field
