import LedgerQuery.Key.Query
import LedgerQuery.Proofs.Key.Opening
import LedgerQuery.Proofs.Text.Hex

/-!
# Spellings of a key

A primitive key is written into storage as bytes and into a query as text.  Here the ways to write
it are listed on both sides: alone, or first in a list of keys or in a threshold key; in digits of
either case, with or without a mark and the DER head of its kind.  The main statement is that all of
them are read as one canonical form, so that a key which is asked for is found.
-/

namespace LedgerQuery.Key

open PublicKey (body? canonical? lower withoutMark)

namespace PrimitiveKind

/-- The number of bytes of a key of the kind. -/
def size : PrimitiveKind → Nat
  | ed25519 => 32
  | ecdsa => 33

/-- The DER head of a key of the kind. -/
def head : PrimitiveKind → List Char
  | ed25519 => PublicKey.ed25519Head
  | ecdsa => PublicKey.ecdsaHead

end PrimitiveKind

/-! ## Spellings in a query -/

/-- What may stand in front of the digits of a key. -/
def marks : List (List Char) :=
  [[], ['0', 'x'], ['0', 'X']]

/-- A text spells a key of a kind: its hexadecimal digits in any mix of cases, with or without a
mark and the head of the kind, which may be in any mix of cases too. -/
inductive Spells (kind : PrimitiveKind) (bytes : List UInt8) : String → Prop where
  | parts {mark head digits : List Char} (isMark : mark ∈ marks)
    (isHead : head = [] ∨ lower head = kind.head) (isKey : lower digits = Text.Hex.ofBytes bytes) :
    Spells kind bytes (String.ofList (mark ++ (head ++ digits)))

section Digits

theorem length_lower (cs : List Char) : (lower cs).length = cs.length :=
  List.length_map _

theorem lower_append (cs ds : List Char) : lower (cs ++ ds) = lower cs ++ lower ds :=
  List.map_append

theorem isDigit_of_lower
    {cs : List Char} (digits : ∀ c ∈ lower cs, Text.Hex.isDigit c = true) :
    ∀ c ∈ cs, Text.Hex.isDigit c = true := by
  intro c member
  have small := digits c.toLower (List.mem_map_of_mem member)
  rwa [Text.Hex.isDigit_toLower] at small

theorem PrimitiveKind.isDigit_head (kind : PrimitiveKind) :
    ∀ c ∈ kind.head, Text.Hex.isDigit c = true := by
  rw [← List.all_eq_true]
  cases kind <;> rfl

/-- A mark is taken off digits, and digits on their own begin with no mark. -/
theorem withoutMark_append
    {mark : List Char} (isMark : mark ∈ marks)
    {cs : List Char} (digits : ∀ c ∈ cs, Text.Hex.isDigit c = true) :
    withoutMark (mark ++ cs) = cs := by
  rw [marks, List.mem_cons, List.mem_cons, List.mem_singleton] at isMark
  rcases isMark with rfl | rfl | rfl
  · rw [List.nil_append]
    unfold withoutMark
    split
    · exact absurd (digits 'x' (by simp)) (by decide)
    · exact absurd (digits 'X' (by simp)) (by decide)
    · rfl
  · rfl
  · rfl

/-- Digits at the end of a text leave no line feed there. -/
theorem line_append
    (front : List Char) {cs : List Char} (some : cs ≠ [])
    (digits : ∀ c ∈ cs, Text.Hex.isDigit c = true) :
    Text.line (front ++ cs) = front ++ cs := by
  apply Text.line_eq_self
  rw [List.getLast?_append_of_ne_nil _ some]
  intro feed
  exact absurd (digits '\n' (List.mem_of_getLast? feed)) (by decide)

/-! ## Reading the digits -/

theorem isHexRun_of_length
    {size : Nat} {cs : List Char} (digits : ∀ c ∈ cs, Text.Hex.isDigit c = true)
    (length : cs.length = size) :
    Field.isHexRun size size cs = true := by
  simpa [Field.isHexRun, length] using digits

theorem length_of_isHexRun
    {size : Nat} {cs : List Char} (run : Field.isHexRun size size cs = true) :
    cs.length = size := by
  simp only [Field.isHexRun, Bool.and_eq_true, decide_eq_true_eq] at run
  omega

/-- The digits of a key are found bare and behind the head of their kind. -/
theorem body?_append
    {own front digits : List Char} {size : Nat}
    (run : Field.isHexRun size size digits = true)
    (isHead : front = [] ∨ lower front = own) :
    body? own size (front ++ digits) = some digits := by
  have length := length_of_isHexRun run
  by_cases bare : front = []
  · rw [bare, List.nil_append, body?, if_pos run]
  · have isOwn : lower front = own := isHead.resolve_left bare
    have longer : ¬Field.isHexRun size size (front ++ digits) = true := by
      intro whole
      have total := length_of_isHexRun whole
      rw [List.length_append] at total
      exact bare (List.length_eq_zero_iff.mp (by omega))
    have isPrefix : own.isPrefixOf (lower (front ++ digits)) = true := by
      rw [lower_append, isOwn, List.isPrefixOf_iff_prefix]
      exact List.prefix_append own (lower digits)
    have behind : (front ++ digits).drop own.length = digits := by
      rw [← isOwn, length_lower, List.drop_left]
    rw [body?, if_neg longer, isPrefix, behind, run, Bool.and_self, if_pos rfl]

/-- A text of neither length is no key of a kind. -/
theorem body?_eq_none
    {head : List Char} {size : Nat} {cs : List Char} (some : 0 < size)
    (notBare : cs.length ≠ size) (notWrapped : cs.length ≠ head.length + size) :
    body? head size cs = none := by
  have bare : ¬Field.isHexRun size size cs = true :=
    fun run => notBare (length_of_isHexRun run)
  have wrapped : Field.isHexRun size size (cs.drop head.length) = false := by
    rw [Bool.eq_false_iff]
    intro run
    have length := length_of_isHexRun run
    rw [List.length_drop] at length
    omega
  rw [body?, if_neg bare, wrapped, Bool.and_false, if_neg Bool.false_ne_true]

end Digits

theorem isDigit_of_lower_eq
    {digits : List Char} {bytes : List UInt8} (isKey : lower digits = Text.Hex.ofBytes bytes) :
    ∀ c ∈ digits, Text.Hex.isDigit c = true := by
  apply isDigit_of_lower
  rw [isKey]
  exact fun _ => Text.Hex.isDigit_of_mem_ofBytes

theorem length_of_lower_eq
    {digits : List Char} {bytes : List UInt8} (isKey : lower digits = Text.Hex.ofBytes bytes) :
    digits.length = 2 * bytes.length := by
  rw [← length_lower, isKey, Text.Hex.length_ofBytes]

theorem isDigit_of_isHead
    {kind : PrimitiveKind} {head : List Char} (isHead : head = [] ∨ lower head = kind.head) :
    ∀ c ∈ head, Text.Hex.isDigit c = true := by
  rcases isHead with rfl | isHead
  · exact List.forall_mem_nil _
  · apply isDigit_of_lower
    rw [isHead]
    exact kind.isDigit_head

theorem PrimitiveKind.size_pos (kind : PrimitiveKind) : 0 < kind.size := by
  cases kind <;> decide

/-- A spelling of a key ends in a digit, so it is a line of its own. -/
theorem Spells.line_eq
    {kind : PrimitiveKind} {bytes : List UInt8} {s : String}
    (spelled : Spells kind bytes s) (length : bytes.length = kind.size) :
    Text.line s.toList = s.toList := by
  rcases spelled with @⟨mark, head, digits, -, -, isKey⟩
  have some : digits ≠ [] := by
    have count := length_of_lower_eq isKey
    have positive := kind.size_pos
    apply List.ne_nil_of_length_pos
    omega
  rw [String.toList_ofList, ← List.append_assoc]
  exact line_append (mark ++ head) some (isDigit_of_lower_eq isKey)

/-- All spellings of a key have its bytes in lower-case digits for their canonical form. -/
theorem Spells.canonical?_eq
    {kind : PrimitiveKind} {bytes : List UInt8} {s : String}
    (spelled : Spells kind bytes s) (length : bytes.length = kind.size) :
    canonical? s = some (Text.Hex.write bytes) := by
  have ownLine := spelled.line_eq length
  rcases spelled with @⟨mark, head, digits, isMark, isHead, isKey⟩
  have count : digits.length = 2 * kind.size := by
    rw [length_of_lower_eq isKey, length]
  have keyDigits : ∀ c ∈ digits, Text.Hex.isDigit c = true := isDigit_of_lower_eq isKey
  have allDigits : ∀ c ∈ head ++ digits, Text.Hex.isDigit c = true :=
    List.forall_mem_append.mpr ⟨isDigit_of_isHead isHead, keyDigits⟩
  have stripped : withoutMark (Text.line (mark ++ (head ++ digits))) = head ++ digits := by
    rw [String.toList_ofList] at ownLine
    rw [ownLine, withoutMark_append isMark allDigits]
  have found : body? kind.head (2 * kind.size) (head ++ digits) = some digits :=
    body?_append (isHexRun_of_length keyDigits count) isHead
  have read : (body? PublicKey.ed25519Head 64 (head ++ digits)).or
      (body? PublicKey.ecdsaHead 66 (head ++ digits)) = some digits := by
    cases kind with
    | ed25519 =>
      have own : body? PublicKey.ed25519Head 64 (head ++ digits) = some digits := found
      rw [own, Option.some_or]
    | ecdsa =>
      have own : body? PublicKey.ecdsaHead 66 (head ++ digits) = some digits := found
      have other : body? PublicKey.ed25519Head 64 (head ++ digits) = none := by
        have front : head.length = 0 ∨ head.length = 28 := by
          rcases isHead with rfl | isHead
          · exact Or.inl rfl
          · rw [← length_lower, isHead]
            exact Or.inr rfl
        have total : (head ++ digits).length = head.length + 66 := by
          rw [List.length_append, count]
          rfl
        have wrapped : PublicKey.ed25519Head.length = 24 := rfl
        apply body?_eq_none (by decide) <;> omega
      rw [other, own, Option.none_or]
  rw [canonical?, String.toList_ofList, stripped, read, Option.map_some, isKey]
  rfl

/-! ## Stored forms -/

/-- The message of a key. -/
def PrimitiveKind.message (kind : PrimitiveKind) (bytes : List UInt8) : List UInt8 :=
  Wire.write [⟨kind.field, .delimited bytes⟩]

section Stored

variable {kind : PrimitiveKind} {bytes : List UInt8}

theorem holds_message (length : bytes.length = kind.size) :
    Holds (kind.message bytes) kind.field bytes := by
  have isKey : isKeyField kind.field = true := by
    cases kind <;> rfl
  have short : bytes.length < 1 <<< 64 := by
    rw [length]
    cases kind <;> decide
  exact holds_write isKey short

/-- The message of a key stores it. -/
theorem stores_message (length : bytes.length = kind.size) :
    Stores kind bytes (kind.message bytes) :=
  .alone (holds_message length)

/-- A list of keys and a threshold key store their first key. -/
theorem stores_write
    (length : bytes.length = kind.size)
    {wrapper : Wrapper} (small : wrapper.IsSmall) {others : List (List UInt8)}
    (short : (wrapper.write (kind.message bytes :: others)).length < 1 <<< 64) :
    Stores kind bytes (wrapper.write (kind.message bytes :: others)) := by
  apply primitive_eq_ok_iff.mp
  rw [primitive_write small short]
  exact parseMessage_eq_ok_some_iff.mpr (holds_message length)

/--
A key is found by any of its spellings.  Its own message stores it, and so do a list of keys and a
threshold key that it comes first in, of any others and with lengths and a threshold of at most
sixty-four bits.  Wherever it is stored, the stored bytes and the value of a query have one
canonical form, and the value is accepted as a key.
-/
theorem parse_eq_decode_of_spells (length : bytes.length = kind.size) :
    (Stores kind bytes (kind.message bytes) ∧
      ∀ (wrapper : Wrapper) (others : List (List UInt8)), wrapper.IsSmall →
        (wrapper.write (kind.message bytes :: others)).length < 1 <<< 64 →
          Stores kind bytes (wrapper.write (kind.message bytes :: others))) ∧
      ∀ (stored : List UInt8) (s : String), Stores kind bytes stored → Spells kind bytes s →
        ∃ key, decode stored = some key ∧ key.type = kind.type ∧
          PublicKey.parse (.text s) = .text key.hex ∧ PublicKey.isValid (.text s) = true := by
  refine ⟨⟨stores_message length, ?_⟩, ?_⟩
  · intro wrapper others small short
    exact stores_write length small short
  · intro stored s stores spelled
    have canonical := spelled.canonical?_eq length
    refine ⟨⟨kind.type, Text.Hex.write bytes⟩, decode_of_stores stores, rfl,
      PublicKey.parse_text canonical, ?_⟩
    rw [PublicKey.isValid_text, canonical, Option.isSome_some]

/-- The bytes of the key begin like the DER head of the other kind; the text is in mixed case,
behind a mark and the own head, and the key stands in front of another one in a threshold key. -/
theorem parse_eq_decode_of_mixed_case :
    let bytes : List UInt8 :=
      [0x30, 0x2a, 0x30, 0x05, 0x06, 0x03, 0x2b, 0x65, 0x70, 0x03, 0x21, 0x00] ++
        List.replicate 21 0xab
    let message := PrimitiveKind.ecdsa.message bytes
    let stored := (Wrapper.threshold 2).write [message, [0xff]]
    let text := "0X302D300706052b8104000A032200" ++ "302A300506032b6570032100" ++
      "aBAbABabababababababababababababababababab"
    bytes.length = 33 ∧ Stores .ecdsa bytes stored ∧ Spells .ecdsa bytes text ∧
      ∃ key, decode stored = some key ∧ key.type = .ecdsa ∧
        PublicKey.parse (.text text) = .text key.hex ∧
        PublicKey.isValid (.text text) = true := by
  intro bytes message stored text
  have length : bytes.length = PrimitiveKind.ecdsa.size := by
    decide
  have small : (Wrapper.threshold 2).IsSmall := by
    show 2 < 1 <<< 64
    decide
  have short : stored.length < 1 <<< 64 := by
    decide +kernel
  rcases parse_eq_decode_of_spells length with ⟨⟨-, wrapped⟩, found⟩
  have stores : Stores .ecdsa bytes stored := wrapped (.threshold 2) [[0xff]] small short
  have spelled : Spells .ecdsa bytes text :=
    @Spells.parts .ecdsa bytes ['0', 'X'] "302D300706052b8104000A032200".toList
      ("302A300506032b6570032100" ++ "aBAbABabababababababababababababababababab").toList
      (by decide) (Or.inr (by decide)) (by decide)
  exact ⟨length, stores, spelled, found stored text stores spelled⟩

end Stored

end LedgerQuery.Key
