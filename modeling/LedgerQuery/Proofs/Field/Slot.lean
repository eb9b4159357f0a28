import LedgerQuery.Proofs.Field.Hexadecimal
import LedgerQuery.Proofs.Numeral.Literal

/-!
# Slots

A slot is one to sixty-four hexadecimal digits, perhaps behind a mark.  The
digits are a number, the full form of the slot is this number in thirty-two
bytes, and the stored form is the full form without its leading zeros, so either
form is as good as the number.

The test for slots takes a text as a line, so it also accepts a line feed at the
end, which no reader of slots passes over.  The second main statement says that
nothing else keeps an accepted slot from being read.
-/

namespace LedgerQuery.Field

open Numeral (notMem_of_isDigit)
open Text (line)
open Text.Hex (bigEndian isDigit number wordBytes)

/-! ## Spelling -/

/-- A text consists of one to sixty-four hexadecimal digits, perhaps behind a mark. -/
structure SpellsSlot (cs digits : List Char) : Prop where
  isHex : ∀ c ∈ digits, isDigit c = true
  positive : 1 ≤ digits.length
  few : digits.length ≤ 64
  marked : cs = digits ∨ cs = '0' :: 'x' :: digits

theorem eq_withoutMark_or (cs : List Char) :
    cs = withoutMark cs ∨ cs = '0' :: 'x' :: withoutMark cs := by
  rw [withoutMark.eq_def]
  split
  · exact Or.inr rfl
  · exact Or.inl rfl

theorem withoutMark_eq_self {cs : List Char} (noMark : 'x' ∉ cs) : withoutMark cs = cs := by
  rw [withoutMark.eq_def]
  split
  · simp at noMark
  · rfl

section Spelled

variable {cs digits : List Char} {s t : String}

theorem SpellsSlot.withoutMark_append
    (spelled : SpellsSlot cs digits) {rest : List Char} (noMark : 'x' ∉ rest) :
    withoutMark (cs ++ rest) = digits ++ rest := by
  rcases spelled.marked with rfl | rfl
  · apply withoutMark_eq_self
    rw [List.mem_append, not_or]
    exact ⟨notMem_of_isDigit spelled.isHex (by decide), noMark⟩
  · rfl

theorem SpellsSlot.withoutMark_eq (spelled : SpellsSlot cs digits) : withoutMark cs = digits := by
  simpa using spelled.withoutMark_append List.not_mem_nil

theorem SpellsSlot.isDigit_filled (spelled : SpellsSlot cs digits) (count : Nat) :
    ∀ c ∈ List.replicate count '0' ++ digits, isDigit c = true := by
  rw [List.forall_mem_append]
  exact ⟨fun c member => List.eq_of_mem_replicate member ▸ rfl, spelled.isHex⟩

theorem SpellsSlot.isDigit_stripped (spelled : SpellsSlot cs digits) :
    ∀ c ∈ digits.dropWhile (· == '0'), isDigit c = true :=
  fun c member => spelled.isHex c (List.dropWhile_subset _ member)

/-- The accepted texts are the spellings of slots, with or without a line feed behind. -/
theorem isSlot_text_iff :
    isSlot (.text s) = true ↔ ∃ digits, SpellsSlot (line s.toList) digits := by
  have run : isSlot (.text s) = isHexRun 1 64 (withoutMark (line s.toList)) := rfl
  rw [run, isHexRun, Bool.and_eq_true, Bool.and_eq_true, List.all_eq_true, decide_eq_true_eq,
    decide_eq_true_eq]
  constructor
  · rintro ⟨⟨isHex, positive⟩, few⟩
    exact ⟨_, isHex, positive, few, eq_withoutMark_or _⟩
  · rintro ⟨digits, spelled⟩
    rw [spelled.withoutMark_eq]
    exact ⟨⟨spelled.isHex, spelled.positive⟩, spelled.few⟩

/-- A number of sixty-four digits fits thirty-two bytes. -/
theorem SpellsSlot.number_lt (spelled : SpellsSlot cs digits) : number digits < 2 ^ 256 := by
  calc
    number digits < 16 ^ digits.length := Text.Hex.number_lt digits
    _ ≤ 16 ^ 64 := Nat.pow_le_pow_right (by decide) spelled.few
    _ = 2 ^ 256 := by norm_num

/-! ## Forms of a slot -/

theorem formatSlot_text (s : String) (leftPad : Bool) :
    formatSlot (.text s) leftPad = hexBytes (withoutMark (slotDigits leftPad s.toList)) := rfl

theorem formatSlot_text_full (spelled : SpellsSlot s.toList digits) :
    formatSlot (.text s) true = .ok (wordBytes 32 (number digits)) := by
  have filled : slotDigits true s.toList =
      List.replicate (64 - digits.length) '0' ++ digits := by
    rw [slotDigits, spelled.withoutMark_eq]
    rfl
  have isHex := spelled.isDigit_filled (64 - digits.length)
  rcases exists_hexBytes isHex with ⟨bytes, read, length, value⟩
  have size : bytes.length = 32 := by
    have few := spelled.few
    rw [List.length_append, List.length_replicate] at length
    omega
  rw [Text.Hex.number_zeros_append] at value
  rw [formatSlot_text, filled, withoutMark_eq_self (notMem_of_isDigit isHex (by decide)), read,
    ← value, ← size, Text.Hex.wordBytes_bigEndian]

/-- Bytes of digits of which the first is not zero do not begin with zero. -/
theorem head?_ne_zero_of_bigEndian
    {bytes : List UInt8} (isHex : ∀ c ∈ digits, isDigit c = true) (first : digits.head? ≠ some '0')
    (length : bytes.length = (digits.length + 1) / 2) (value : bigEndian bytes = number digits) :
    bytes.head? ≠ some 0 := by
  intro zero
  cases bytes with
  | nil => cases zero
  | cons byte bytes =>
    cases zero
    cases digits with
    | nil => cases length
    | cons c digits =>
      rw [List.forall_mem_cons] at isHex
      rcases Text.Hex.exists_value? isHex.1 with ⟨high, isHigh⟩
      have positive : 0 < high := by
        apply Text.Hex.value?_pos isHigh
        rintro rfl
        exact first rfl
      rw [List.length_cons, List.length_cons] at length
      -- The first digit alone is as great as any number in the bytes behind the first.
      have small : bigEndian (0 :: bytes) < number (c :: digits) := by
        calc
          bigEndian (0 :: bytes) = bigEndian bytes :=
            Text.Hex.bigEndian_replicate_append 1 bytes
          _ < 256 ^ bytes.length := Text.Hex.bigEndian_lt bytes
          _ = 16 ^ (2 * bytes.length) := by rw [Nat.pow_mul]
          _ ≤ 16 ^ digits.length := Nat.pow_le_pow_right (by decide) (by omega)
          _ ≤ number (c :: digits) := Text.Hex.le_number_cons isHigh positive isHex.2
      exact absurd value (Nat.ne_of_lt small)

theorem formatSlot_text_stored (spelled : SpellsSlot s.toList digits) :
    formatSlot (.text s) false = .ok ((wordBytes 32 (number digits)).dropWhile (· == 0)) := by
  have stripped : slotDigits false s.toList = digits.dropWhile (· == '0') := by
    rw [slotDigits, spelled.withoutMark_eq]
    rfl
  have isHex := spelled.isDigit_stripped
  rcases exists_hexBytes isHex with ⟨bytes, read, length, value⟩
  have few : bytes.length ≤ 32 := by
    have fewer := List.length_dropWhile_le (· == '0') digits
    have most := spelled.few
    omega
  have first : (digits.dropWhile (· == '0')).head? ≠ some '0' := by
    intro zero
    have notZero := List.head?_dropWhile_not (· == '0') digits
    rw [zero] at notZero
    exact absurd notZero (by decide)
  have notZero := head?_ne_zero_of_bigEndian isHex first length value
  have word : wordBytes 32 (number digits) =
      List.replicate (32 - bytes.length) 0 ++ bytes := by
    rw [← Text.Hex.number_dropWhile_zero, ← value, Text.Hex.wordBytes_bigEndian_of_le few]
  have ownStart : bytes.dropWhile (· == 0) = bytes := by
    cases bytes with
    | nil => rfl
    | cons byte bytes =>
      apply List.dropWhile_cons_of_neg
      rintro zero
      exact notZero (congrArg some (eq_of_beq zero))
  rw [formatSlot_text, stripped, withoutMark_eq_self (notMem_of_isDigit isHex (by decide)), read,
    word, List.dropWhile_append_of_pos, ownStart]
  intro byte member
  rw [List.eq_of_mem_replicate member]
  rfl

theorem slotValue_text (spelled : SpellsSlot s.toList digits) :
    slotValue (.text s) = .ok (number digits) := by
  have fits : number digits < 256 ^ 32 := by
    have small := spelled.number_lt
    omega
  have value : bigEndian ((wordBytes 32 (number digits)).dropWhile (· == 0)) = number digits := by
    rw [Text.Hex.bigEndian_dropWhile_zero, Text.Hex.bigEndian_wordBytes fits]
  rw [slotValue, formatSlot_text_stored spelled]
  exact congrArg Except.ok value

/-- Either form of a slot determines its number. -/
theorem formatSlot_text_eq_iff {other : List Char}
    (spelled : SpellsSlot s.toList digits) (otherSpelled : SpellsSlot t.toList other)
    (leftPad : Bool) :
    formatSlot (.text s) leftPad = formatSlot (.text t) leftPad ↔
      number digits = number other := by
  cases leftPad with
  | false =>
    constructor
    · intro same
      have values : slotValue (.text s) = slotValue (.text t) := by
        rw [slotValue, slotValue, same]
      rw [slotValue_text spelled, slotValue_text otherSpelled] at values
      exact Except.ok.inj values
    · intro same
      rw [formatSlot_text_stored spelled, formatSlot_text_stored otherSpelled, same]
  | true =>
    rw [formatSlot_text_full spelled, formatSlot_text_full otherSpelled]
    constructor
    · intro same
      have values := congrArg bigEndian (Except.ok.inj same)
      have small := spelled.number_lt
      have otherSmall := otherSpelled.number_lt
      rwa [Text.Hex.bigEndian_wordBytes (by omega),
        Text.Hex.bigEndian_wordBytes (by omega)] at values
    · intro same
      rw [same]

/--
The forms of a slot agree.  Its value is the number of its digits, its full form
is this number in thirty-two bytes, and its stored form is the full form without
the zeros in front, which is empty exactly for zero.  Two slots have equal forms
of either kind exactly when their digits spell one number.
-/
theorem slot_forms {other : List Char}
    (spelled : SpellsSlot s.toList digits) (otherSpelled : SpellsSlot t.toList other) :
    slotValue (.text s) = .ok (number digits) ∧
      formatSlot (.text s) true = .ok (wordBytes 32 (number digits)) ∧
      formatSlot (.text s) false = .ok ((wordBytes 32 (number digits)).dropWhile (· == 0)) ∧
      (formatSlot (.text s) false = .ok [] ↔ number digits = 0) ∧
      ∀ leftPad, formatSlot (.text s) leftPad = formatSlot (.text t) leftPad ↔
        number digits = number other := by
  have value := slotValue_text spelled
  have stored := formatSlot_text_stored spelled
  refine ⟨value, formatSlot_text_full spelled, stored, ?_,
    formatSlot_text_eq_iff spelled otherSpelled⟩
  constructor
  · intro empty
    rw [slotValue, empty] at value
    exact (Except.ok.inj value).symm
  · intro zero
    rw [stored, zero]
    rfl

end Spelled

/-- Ten in two spellings, of which one has its mark and zeros in front. -/
theorem slot_forms_ten :
    SpellsSlot "0x000A".toList "000A".toList ∧ SpellsSlot "a".toList "a".toList ∧
      slotValue (.text "0x000A") = .ok 10 ∧
      formatSlot (.text "0x000A") true = .ok (List.replicate 31 0 ++ [10]) ∧
      formatSlot (.text "0x000A") false = .ok [10] ∧
      ∀ leftPad, formatSlot (.text "0x000A") leftPad = formatSlot (.text "a") leftPad := by
  have marked : SpellsSlot "0x000A".toList "000A".toList :=
    ⟨List.all_eq_true.mp (by decide), by decide, by decide, Or.inr rfl⟩
  have bare : SpellsSlot "a".toList "a".toList :=
    ⟨List.all_eq_true.mp (by decide), by decide, by decide, Or.inl rfl⟩
  have word : wordBytes 32 (number "000A".toList) = List.replicate 31 0 ++ [10] := by
    decide +kernel
  rcases slot_forms marked bare with ⟨value, full, stored, -, same⟩
  rw [word] at full stored
  exact ⟨marked, bare, value, full, stored, fun leftPad => (same leftPad).mpr rfl⟩

/-! ## Accepted slots -/

section Accepted

variable {s : String} {digits : List Char}

/-- A text has both forms of a slot, the full one of thirty-two bytes, and a value of two hundred
and fifty-six bits. -/
def DecodesSlot (s : String) : Prop :=
  (∃ stored, formatSlot (.text s) false = .ok stored) ∧
    (∃ full, formatSlot (.text s) true = .ok full ∧ full.length = 32) ∧
    ∃ n, slotValue (.text s) = .ok n ∧ n < 2 ^ 256

/-- Both forms of a text and its value are refused for a character that is no digit. -/
def RefusesSlot (s : String) : Prop :=
  (∀ leftPad, ∃ position,
      formatSlot (.text s) leftPad = .error (.unreadable (.hexadecimal position))) ∧
    ∃ position, slotValue (.text s) = .error (.unreadable (.hexadecimal position))

theorem DecodesSlot.not_refusesSlot (decodes : DecodesSlot s) : ¬RefusesSlot s := by
  rintro ⟨refused, -⟩
  rcases decodes.1 with ⟨stored, read⟩
  rcases refused false with ⟨position, failed⟩
  rw [read] at failed
  cases failed

theorem SpellsSlot.decodesSlot (spelled : SpellsSlot s.toList digits) : DecodesSlot s :=
  ⟨⟨_, formatSlot_text_stored spelled⟩,
    ⟨_, formatSlot_text_full spelled, Text.Hex.length_wordBytes 32 _⟩,
    ⟨_, slotValue_text spelled, spelled.number_lt⟩⟩

/-- With a line feed behind it a run of digits does not spell bytes: the zero in front keeps the
number of digits odd. -/
theorem exists_hexBytes_newline_error {filled : List Char}
    (isHex : ∀ c ∈ filled, isDigit c = true) :
    ∃ position, hexBytes (filled ++ ['\n']) = .error (.unreadable (.hexadecimal position)) := by
  apply exists_hexBytes_error
  rintro ⟨bytes, spelled⟩
  have count := spelled.length_filterMap
  have digitCount : ((filled ++ ['\n']).filterMap Text.Hex.value?).length = filled.length := by
    rw [List.filterMap_append, List.length_append, Text.Hex.length_filterMap_of_isDigit isHex]
    rfl
  have length : (filled ++ ['\n']).length = filled.length + 1 := List.length_append
  rw [evenLength] at count
  split at count
  · have zero : Text.Hex.value? '0' = some 0 := rfl
    rw [List.filterMap_cons_some zero, List.length_cons, digitCount] at count
    omega
  · rw [digitCount] at count
    omega

/-- Filling up and taking zeros away leave a line feed at the end where it is. -/
theorem exists_slotDigits_newline
    (spelled : SpellsSlot (line s.toList) digits) (feed : s.toList = line s.toList ++ ['\n'])
    (leftPad : Bool) :
    ∃ filled, (∀ c ∈ filled, isDigit c = true) ∧
      slotDigits leftPad s.toList = filled ++ ['\n'] := by
  have behindMark : withoutMark s.toList = digits ++ ['\n'] := by
    rw [feed]
    exact spelled.withoutMark_append (by decide)
  rw [slotDigits, behindMark]
  cases leftPad with
  | false =>
    refine ⟨digits.dropWhile (· == '0'), spelled.isDigit_stripped, ?_⟩
    show (digits ++ ['\n']).dropWhile (· == '0') = _
    rw [List.dropWhile_append]
    split
    · next empty =>
      rw [List.isEmpty_iff.mp empty]
      rfl
    · rfl
  | true =>
    exact ⟨List.replicate (64 - (digits ++ ['\n']).length) '0' ++ digits,
      spelled.isDigit_filled _, (List.append_assoc _ _ _).symm⟩

theorem SpellsSlot.refusesSlot
    (spelled : SpellsSlot (line s.toList) digits) (feed : s.toList = line s.toList ++ ['\n']) :
    RefusesSlot s := by
  have refused : ∀ leftPad, ∃ position,
      formatSlot (.text s) leftPad = .error (.unreadable (.hexadecimal position)) := by
    intro leftPad
    rcases exists_slotDigits_newline spelled feed leftPad with ⟨filled, isHex, isFilled⟩
    have noMark : 'x' ∉ filled ++ ['\n'] := by
      rw [List.mem_append, not_or]
      exact ⟨notMem_of_isDigit isHex (by decide), by decide⟩
    rw [formatSlot_text, isFilled, withoutMark_eq_self noMark]
    exact exists_hexBytes_newline_error isHex
  refine ⟨refused, ?_⟩
  rcases refused false with ⟨position, failed⟩
  refine ⟨position, ?_⟩
  rw [slotValue, failed]
  rfl

theorem SpellsSlot.getLast?_ne {cs : List Char} (spelled : SpellsSlot cs digits) :
    cs.getLast? ≠ some '\n' := by
  intro last
  have noFeed := notMem_of_isDigit spelled.isHex (by decide : isDigit '\n' = false)
  have member := List.mem_of_getLast? last
  rcases spelled.marked with rfl | rfl
  · exact noFeed member
  · simp [noFeed] at member

/--
A text that is accepted as a slot has both forms and a value unless it ends in a
line feed; with one behind its digits all three are refused.
-/
theorem decodesSlot_iff (valid : isSlot (.text s) = true) :
    (DecodesSlot s ↔ s.toList.getLast? ≠ some '\n') ∧
      (RefusesSlot s ↔ s.toList.getLast? = some '\n') := by
  rcases isSlot_text_iff.mp valid with ⟨digits, spelled⟩
  by_cases feed : s.toList.getLast? = some '\n'
  · have ends : s.toList = line s.toList ++ ['\n'] := by
      apply (Text.eq_line_or s.toList).resolve_left
      intro ownLine
      rw [← ownLine] at spelled
      exact spelled.getLast?_ne feed
    have refuses := spelled.refusesSlot ends
    exact ⟨iff_of_false (fun decodes => decodes.not_refusesSlot refuses) (not_not_intro feed),
      iff_of_true refuses feed⟩
  · rw [Text.line_eq_self feed] at spelled
    have decodes := spelled.decodesSlot
    exact ⟨iff_of_true decodes feed, iff_of_false decodes.not_refusesSlot feed⟩

end Accepted

/-- Digits of either case behind a mark are a slot that is read. -/
theorem decodesSlot_mixed_case :
    isSlot (.text "0x00aB") = true ∧ DecodesSlot "0x00aB" := by
  have valid : isSlot (.text "0x00aB") = true := by decide
  exact ⟨valid, (decodesSlot_iff valid).1.mpr (by decide)⟩

/-- A digit with a line feed behind it is accepted and refused. -/
theorem decodesSlot_refuted :
    isSlot (.text "5\n") = true ∧
      formatSlot (.text "5\n") false = .error (.unreadable (.hexadecimal 1)) ∧
      ¬DecodesSlot "5\n" := by
  have refused : formatSlot (.text "5\n") false = .error (.unreadable (.hexadecimal 1)) := by
    rfl
  refine ⟨by decide, refused, ?_⟩
  rintro ⟨⟨stored, read⟩, -⟩
  rw [refused] at read
  cases read

end LedgerQuery.Field
