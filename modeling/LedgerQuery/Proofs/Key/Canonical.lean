import LedgerQuery.Proofs.Key.Spelling

/-!
# The canonical form of a key

The texts that are accepted as keys are exactly the spellings of keys, with or
without a line feed behind, and each has the digits of its bytes for its canonical
form.  The main statement follows from this: a canonical form is a key in
lower-case digits that is its own canonical form, and it does not change with the
case of a text, with a mark in front of it or with the head of its kind in front of
bare digits.
-/

namespace LedgerQuery.Key

open PublicKey (body? canonical? lower withoutMark)

variable {kind : PrimitiveKind} {bytes : List UInt8} {s t r : String}

/-! ## Which texts are accepted -/

theorem exists_mark (cs : List Char) : ∃ mark ∈ marks, cs = mark ++ withoutMark cs := by
  unfold withoutMark
  split
  · exact ⟨['0', 'x'], by decide, rfl⟩
  · exact ⟨['0', 'X'], by decide, rfl⟩
  · exact ⟨[], by decide, rfl⟩

/-- The digits of a key stand alone or behind the head of their kind. -/
theorem exists_front_of_body?
    {head : List Char} {size : Nat} {cs digits : List Char}
    (found : body? head size cs = some digits) :
    ∃ front, cs = front ++ digits ∧ (front = [] ∨ lower front = head) ∧
      Field.isHexRun size size digits = true := by
  rw [body?] at found
  split at found
  · next bare =>
    cases found
    exact ⟨[], rfl, Or.inl rfl, bare⟩
  · split at found
    · next wrapped =>
      cases found
      rw [Bool.and_eq_true, List.isPrefixOf_iff_prefix] at wrapped
      refine ⟨cs.take head.length, (List.take_append_drop _ cs).symm, Or.inr ?_, wrapped.2⟩
      rw [lower, List.map_take]
      exact (List.prefix_iff_eq_take.mp wrapped.1).symm
    · cases found

theorem exists_body?_of_canonical?
    (canonical : canonical? s = some r) :
    ∃ (kind : PrimitiveKind) (digits : List Char),
      body? kind.head (2 * kind.size) (withoutMark (Text.line s.toList)) = some digits ∧
        r = String.ofList (lower digits) := by
  rcases Option.map_eq_some_iff.mp canonical with ⟨digits, found, rfl⟩
  rcases Option.or_eq_some_iff.mp found with ed25519 | ⟨-, ecdsa⟩
  · exact ⟨.ed25519, digits, ed25519, rfl⟩
  · exact ⟨.ecdsa, digits, ecdsa, rfl⟩

/-- Whether a text is another one, with or without a line feed behind. -/
def IsLineOf (t s : String) : Prop :=
  s = t ∨ s = t ++ "\n"

theorem isLineOf_line (s : String) : IsLineOf (String.ofList (Text.line s.toList)) s := by
  refine (Text.eq_line_or s.toList).imp ?_ ?_
  · intro same
    rw [← same, String.ofList_toList]
  · intro same
    apply String.toList_injective
    rw [String.toList_append, String.toList_ofList]
    exact same

theorem IsLineOf.line_eq
    (isLine : IsLineOf t s) (ownLine : Text.line t.toList = t.toList) :
    Text.line s.toList = t.toList := by
  rcases isLine with rfl | rfl
  · exact ownLine
  · rw [String.toList_append]
    exact Text.line_append_newline t.toList

/-- A line feed behind a spelling makes no difference. -/
theorem Spells.canonical?_of_isLineOf
    (spelled : Spells kind bytes t) (length : bytes.length = kind.size) (isLine : IsLineOf t s) :
    canonical? s = some (Text.Hex.write bytes) := by
  have ownLine := spelled.line_eq length
  have same : canonical? s = canonical? t := by
    rw [canonical?, canonical?, isLine.line_eq ownLine, ownLine]
  rw [same, spelled.canonical?_eq length]

/-- The accepted texts are the spellings of keys, with or without a line feed behind. -/
theorem canonical?_eq_some_iff :
    canonical? s = some r ↔
      ∃ (kind : PrimitiveKind) (bytes : List UInt8) (t : String), bytes.length = kind.size ∧
        Spells kind bytes t ∧ IsLineOf t s ∧ r = Text.Hex.write bytes := by
  constructor
  · intro canonical
    rcases exists_body?_of_canonical? canonical with ⟨kind, digits, found, rfl⟩
    rcases exists_front_of_body? found with ⟨front, behindMark, isHead, run⟩
    rcases exists_mark (Text.line s.toList) with ⟨mark, isMark, whole⟩
    have isHex : ∀ c ∈ digits, Text.Hex.isDigit c = true := by
      simp only [Field.isHexRun, Bool.and_eq_true] at run
      exact List.all_eq_true.mp run.1.1
    rcases Text.Hex.exists_ofBytes isHex (length_of_isHexRun run) with ⟨bytes, length, isKey⟩
    refine ⟨kind, bytes, String.ofList (Text.line s.toList), length, ?_, isLineOf_line s, ?_⟩
    · rw [whole, behindMark]
      exact .parts isMark isHead isKey
    · rw [lower, isKey, Text.Hex.write]
  · rintro ⟨kind, bytes, t, length, spelled, isLine, rfl⟩
    exact spelled.canonical?_of_isLineOf length isLine

/-! ## Other spellings of a key -/

/-- A key in canonical form: sixty-four or sixty-six hexadecimal digits, none of them a capital
letter. -/
def IsCanonical (r : String) : Prop :=
  (r.length = 64 ∨ r.length = 66) ∧ ∀ c ∈ r.toList, Text.Hex.isDigit c = true ∧ c.toLower = c

/-- Whether a text begins with a mark of either case. -/
def BeginsWithMark (s : String) : Prop :=
  ['0', 'x'] <+: lower s.toList

/-- Whether a text consists of the digits of a key of a kind. -/
def IsBare (kind : PrimitiveKind) (s : String) : Prop :=
  s.length = 2 * kind.size ∧ ∀ c ∈ s.toList, Text.Hex.isDigit c = true

theorem isCanonical_write (length : bytes.length = kind.size) :
    IsCanonical (Text.Hex.write bytes) := by
  constructor
  · rw [Text.Hex.write, String.length_ofList, Text.Hex.length_ofBytes, length]
    cases kind with
    | ed25519 => exact Or.inl rfl
    | ecdsa => exact Or.inr rfl
  · intro c member
    rw [Text.Hex.write, String.toList_ofList] at member
    exact ⟨Text.Hex.isDigit_of_mem_ofBytes member, Text.Hex.toLower_of_mem_ofBytes member⟩

/-- The canonical form of a key is one of its spellings. -/
theorem spells_write (kind : PrimitiveKind) (bytes : List UInt8) :
    Spells kind bytes (Text.Hex.write bytes) := by
  have small : lower (Text.Hex.ofBytes bytes) = Text.Hex.ofBytes bytes := by
    have same := fun c (member : c ∈ Text.Hex.ofBytes bytes) =>
      Text.Hex.toLower_of_mem_ofBytes member
    rw [lower, List.map_congr_left same, List.map_id']
  exact @Spells.parts kind bytes [] [] _ (by decide) (Or.inl rfl) small

theorem Spells.isAscii (spelled : Spells kind bytes t) : ∀ c ∈ t.toList, c.toNat < 128 := by
  rcases spelled with @⟨mark, head, digits, isMark, isHead, isKey⟩
  have asciiMarks : ∀ mark ∈ marks, ∀ c ∈ mark, c.toNat < 128 := by
    simp [marks]
  rw [String.toList_ofList, List.forall_mem_append, List.forall_mem_append]
  refine ⟨asciiMarks mark isMark, ?_, ?_⟩
  · exact fun c member => Text.Hex.toNat_lt_of_isDigit (isDigit_of_isHead isHead c member)
  · exact fun c member => Text.Hex.toNat_lt_of_isDigit (isDigit_of_lower_eq isKey c member)

theorem Spells.toUpper (spelled : Spells kind bytes t) : Spells kind bytes t.toUpper := by
  rcases spelled with @⟨mark, head, digits, isMark, isHead, isKey⟩
  have parts : (String.ofList (mark ++ (head ++ digits))).toUpper =
      String.ofList
        (mark.map Char.toUpper ++ (head.map Char.toUpper ++ digits.map Char.toUpper)) := by
    apply String.toList_injective
    simp [String.toUpper]
  have lowerUpper (cs : List Char) : lower (cs.map Char.toUpper) = lower cs := by
    simp [lower]
  have allMarks : ∀ mark ∈ marks, mark.map Char.toUpper ∈ marks := by
    decide
  have isUpperMark := allMarks mark isMark
  rw [parts]
  refine .parts isUpperMark (isHead.imp ?_ ?_) ((lowerUpper digits).trans isKey)
  · rintro rfl
    rfl
  · intro isOwn
    exact (lowerUpper head).trans isOwn

/-- A mark may be put in front of a spelling that has none. -/
theorem Spells.withMark
    (spelled : Spells kind bytes t) (unmarked : ¬BeginsWithMark t) :
    Spells kind bytes ("0x" ++ t) := by
  rcases spelled with @⟨mark, head, digits, isMark, isHead, isKey⟩
  rw [BeginsWithMark, String.toList_ofList, lower_append] at unmarked
  rw [marks, List.mem_cons, List.mem_cons, List.mem_singleton] at isMark
  rcases isMark with rfl | rfl | rfl
  · have whole : "0x" ++ String.ofList ([] ++ (head ++ digits)) =
        String.ofList (['0', 'x'] ++ (head ++ digits)) := by
      apply String.toList_injective
      simp
    rw [whole]
    exact .parts (by decide) isHead isKey
  · exact (unmarked (List.prefix_append _ _)).elim
  · exact (unmarked (List.prefix_append _ _)).elim

/-- Bare digits are a spelling of a key, also behind the head of its kind. -/
theorem IsBare.exists_spells (bare : IsBare kind t) :
    ∃ bytes, bytes.length = kind.size ∧ Spells kind bytes t ∧
      ∀ head, lower head = kind.head → Spells kind bytes (String.ofList head ++ t) := by
  rcases bare with ⟨length, isHex⟩
  rw [← String.length_toList] at length
  rcases Text.Hex.exists_ofBytes isHex length with ⟨bytes, size, isKey⟩
  have alone := @Spells.parts kind bytes [] [] t.toList (by decide) (Or.inl rfl) isKey
  refine ⟨bytes, size, ?_, ?_⟩
  · rwa [List.nil_append, List.nil_append, String.ofList_toList] at alone
  · intro head isOwn
    have wrapped := @Spells.parts kind bytes [] head t.toList (by decide) (Or.inr isOwn) isKey
    rwa [List.nil_append, String.ofList_append, String.ofList_toList] at wrapped

theorem IsLineOf.isAscii (isLine : IsLineOf t s) (ascii : ∀ c ∈ t.toList, c.toNat < 128) :
    ∀ c ∈ s.toList, c.toNat < 128 := by
  rcases isLine with rfl | rfl
  · exact ascii
  · rw [String.toList_append, List.forall_mem_append]
    exact ⟨ascii, by simp⟩

theorem IsLineOf.toUpper (isLine : IsLineOf t s) : IsLineOf t.toUpper s.toUpper := by
  refine isLine.imp (congrArg String.toUpper) ?_
  rintro rfl
  apply String.toList_injective
  simp [String.toUpper]

theorem IsLineOf.append (isLine : IsLineOf t s) (front : String) :
    IsLineOf (front ++ t) (front ++ s) := by
  refine isLine.imp (congrArg (front ++ ·)) ?_
  rintro rfl
  exact String.append_assoc.symm

theorem IsLineOf.beginsWithMark (isLine : IsLineOf t s) (marked : BeginsWithMark t) :
    BeginsWithMark s := by
  rcases isLine with rfl | rfl
  · exact marked
  · rw [BeginsWithMark, String.toList_append, lower_append]
    exact marked.trans (List.prefix_append _ _)

/-! ## The canonical form -/

theorem isValid_of_canonical? (canonical : canonical? s = some r) :
    PublicKey.isValid (.text s) = true := by
  rw [PublicKey.isValid_text, canonical, Option.isSome_some]

theorem exists_canonical?_of_isValid (valid : PublicKey.isValid (.text s) = true) :
    ∃ r, canonical? s = some r := by
  rw [PublicKey.isValid_text] at valid
  exact Option.isSome_iff_exists.mp valid

/-- A text that is no key is left as it is. -/
theorem parse_of_not_isValid (invalid : PublicKey.isValid (.text s) = false) :
    PublicKey.parse (.text s) = .text s := by
  rw [PublicKey.isValid_text, Option.isSome_eq_false_iff, Option.isNone_iff_eq_none] at invalid
  have plain : (Value.text s).plain = s := rfl
  simp only [PublicKey.parse, plain, invalid]

theorem canonical?_write (length : bytes.length = kind.size) :
    canonical? (Text.Hex.write bytes) = some (Text.Hex.write bytes) :=
  (spells_write kind bytes).canonical?_eq length

/--
The canonical form of an accepted text is a key in lower-case digits, which is accepted itself and
is its own canonical form.  The text, which is ASCII, has the same canonical form in upper case, and
so have the text behind a mark if it begins with none, and bare digits behind the head of their
kind.  Any other text is left as it is, so reading a text twice is reading it once.
-/
theorem parse_canonical (s : String) :
    (PublicKey.isValid (.text s) = true →
      ∃ r, PublicKey.parse (.text s) = .text r ∧ IsCanonical r ∧
        PublicKey.isValid (.text r) = true ∧ PublicKey.parse (.text r) = .text r ∧
        (∀ c ∈ s.toList, c.toNat < 128) ∧ PublicKey.parse (.text s.toUpper) = .text r ∧
        (¬BeginsWithMark s → PublicKey.parse (.text ("0x" ++ s)) = .text r) ∧
        ∀ kind, IsBare kind s → ∀ head, lower head = kind.head →
          PublicKey.parse (.text (String.ofList head ++ s)) = .text r) ∧
      (PublicKey.isValid (.text s) = false → PublicKey.parse (.text s) = .text s) ∧
      PublicKey.parse (PublicKey.parse (.text s)) = PublicKey.parse (.text s) := by
  have accepted : ∀ {r}, canonical? s = some r → PublicKey.parse (.text r) = .text r := by
    intro r canonical
    rcases canonical?_eq_some_iff.mp canonical with ⟨kind, bytes, t, length, -, -, rfl⟩
    exact PublicKey.parse_text (canonical?_write length)
  refine ⟨?_, parse_of_not_isValid, ?_⟩
  · intro valid
    rcases exists_canonical?_of_isValid valid with ⟨r, canonical⟩
    rcases canonical?_eq_some_iff.mp canonical with ⟨kind, bytes, t, length, spelled, isLine, rfl⟩
    refine ⟨_, PublicKey.parse_text canonical, isCanonical_write length,
      isValid_of_canonical? (canonical?_write length), accepted canonical,
      isLine.isAscii spelled.isAscii, ?_, ?_, ?_⟩
    · exact PublicKey.parse_text (spelled.toUpper.canonical?_of_isLineOf length isLine.toUpper)
    · intro unmarked
      have marked := spelled.withMark (mt isLine.beginsWithMark unmarked)
      exact PublicKey.parse_text (marked.canonical?_of_isLineOf length (isLine.append "0x"))
    · intro own bare head isOwn
      rcases bare.exists_spells with ⟨ownBytes, ownLength, ownSpelled, wrapped⟩
      -- The text may have been read as another spelling; its canonical form is the same.
      have same := (ownSpelled.canonical?_eq ownLength).symm.trans canonical
      rw [PublicKey.parse_text ((wrapped head isOwn).canonical?_eq ownLength)]
      exact congrArg Value.text (Option.some.inj same)
  · cases valid : PublicKey.isValid (.text s) with
    | false => rw [parse_of_not_isValid valid, parse_of_not_isValid valid]
    | true =>
      rcases exists_canonical?_of_isValid valid with ⟨r, canonical⟩
      rw [PublicKey.parse_text canonical]
      exact accepted canonical

/-- The bare digits of an ECDSA key in mixed case, and their other spellings. -/
theorem parse_canonical_mixed_case :
    let text := "02aBAbABababababababababababababababababababABABABABABABABABABABab"
    let key := "02abababababababababababababababababababababababababababababababab"
    PublicKey.isValid (.text text) = true ∧ ¬BeginsWithMark text ∧ IsBare .ecdsa text ∧
      PublicKey.parse (.text text) = .text key ∧ IsCanonical key ∧
      PublicKey.parse (.text key) = .text key ∧
      PublicKey.parse (.text text.toUpper) = .text key ∧
      PublicKey.parse (.text ("0x" ++ text)) = .text key ∧
      PublicKey.parse (.text ("302D300706052b8104000A032200" ++ text)) = .text key := by
  intro text key
  have valid : PublicKey.isValid (.text text) = true := by
    decide +kernel
  have unmarked : ¬BeginsWithMark text := by
    show ¬['0', 'x'] <+: lower text.toList
    decide
  have bare : IsBare .ecdsa text :=
    ⟨by decide +kernel, List.all_eq_true.mp (by decide +kernel)⟩
  have isKey : canonical? text = some key := by
    decide +kernel
  have isOwn : lower "302D300706052b8104000A032200".toList = PrimitiveKind.ecdsa.head := by
    decide
  rcases (parse_canonical text).1 valid with
    ⟨r, canonical, isCanonical, -, fixed, -, upper, marked, wrapped⟩
  rcases Value.text.inj (canonical.symm.trans (PublicKey.parse_text isKey)) with rfl
  exact ⟨valid, unmarked, bare, canonical, isCanonical, fixed, upper, marked unmarked,
    wrapped .ecdsa bare _ isOwn⟩

end LedgerQuery.Key
