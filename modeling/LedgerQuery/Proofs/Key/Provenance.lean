import LedgerQuery.Proofs.Key.Grammar
import LedgerQuery.Proofs.Key.Opening

/-!
# Where shown bytes come from

Whatever bytes are stored, something is shown for them unless they are the stored
form of no key, and nothing that is shown is made up: it is the stored bytes
themselves or a slice of them.  The slice is the payload of the field that holds
a primitive key, in the stored message or in the first key of the list that the
message opens.  All this is said of the bytes and what they spell, without the
reader.
-/

namespace LedgerQuery

theorem Wire.Payload.delimited?_eq_some_iff {payload : Wire.Payload} {bytes : List UInt8} :
    payload.delimited? = some bytes ↔ payload = .delimited bytes := by
  cases payload <;> simp [delimited?]

namespace Key

open Wire (Field Spells)

/-! ## Fields of spelled messages -/

/-- A message spells fields to its end, and the last one with the number of a key has a length in
front of its payload. -/
def HasLastKey (message : List UInt8) (number : Nat) (payload : List UInt8) : Prop :=
  ∃ fields, Spells fields message ∧ IsLastKey fields number payload

/-- A message begins with fields of which the last one is the first to have a number and a length
in front of its payload.  Anything may stand behind it. -/
def HasFirst (message : List UInt8) (number : Nat) (payload : List UInt8) : Prop :=
  ∃ before front field behind, Spells before front ∧
    (∀ other ∈ before, other.number = number → other.payload.delimited? = none) ∧
    Field.Spells ⟨number, .delimited payload⟩ field ∧ message = front ++ (field ++ behind)

theorem hasLastKey_of_holds
    {message payload : List UInt8} {number : Nat} (held : Holds message number payload) :
    HasLastKey message number payload := by
  rcases held with ⟨fields, walked, haveLengths, last⟩
  exact ⟨fields, Wire.walk_eq_iff.mp walked, (getLast?_keyFields_eq_some_iff haveLengths).mp last⟩

theorem hasFirst_of_found
    {message payload : List UInt8} {number : Nat}
    (found : (Wire.walk message).found? number = some payload) :
    HasFirst message number payload := by
  rcases List.findSome?_eq_some_iff.mp found with ⟨before, field, behind, walked, first, others⟩
  split_ifs at first with same
  rcases Wire.exists_split_of_walk walked with ⟨front, middle, rest, spelled, spelledField, rfl⟩
  refine ⟨before, front, middle, rest, spelled, ?_, ?_, rfl⟩
  · intro other member sameNumber
    have passed := others other member
    rwa [if_pos sameNumber] at passed
  · rw [← same, ← Wire.Payload.delimited?_eq_some_iff.mp first]
    exact spelledField

theorem infix_of_spells
    {number : Nat} {payload front field behind : List UInt8}
    (spelled : Field.Spells ⟨number, .delimited payload⟩ field) :
    payload <:+: front ++ (field ++ behind) :=
  (spelled.isInfix.trans (List.prefix_append field behind).isInfix).trans
    (List.suffix_append front _).isInfix

theorem HasLastKey.isInfix
    {message payload : List UInt8} {number : Nat} (held : HasLastKey message number payload) :
    payload <:+: message := by
  rcases held with ⟨_, spelled, before, behind, rfl, -⟩
  rcases spelled.exists_split with ⟨front, middle, rest, -, spelledField, rfl⟩
  exact infix_of_spells spelledField

theorem HasFirst.isInfix
    {message payload : List UInt8} {number : Nat} (first : HasFirst message number payload) :
    payload <:+: message := by
  rcases first with ⟨before, front, field, behind, -, -, spelledField, rfl⟩
  exact infix_of_spells spelledField

/-! ## Messages inside stored bytes -/

/-- The messages in stored bytes whose key may be shown: the bytes themselves, and the first key of
the list in them, which may stand in a threshold key. -/
inductive Reaches (stored : List UInt8) : List UInt8 → Prop
  | itself : Reaches stored stored
  | list {list key : List UInt8} (held : HasLastKey stored listField list)
    (first : HasFirst list listKeysField key) : Reaches stored key
  | threshold {threshold list key : List UInt8} (held : HasLastKey stored thresholdField threshold)
    (inner : HasFirst threshold thresholdKeysField list)
    (first : HasFirst list listKeysField key) : Reaches stored key

section Stored

variable {stored message : List UInt8}

theorem Reaches.isInfix (reached : Reaches stored message) : message <:+: stored := by
  cases reached with
  | itself => exact List.infix_rfl
  | list held first => exact first.isInfix.trans held.isInfix
  | threshold held inner first => exact (first.isInfix.trans inner.isInfix).trans held.isInfix

theorem reaches_of_opensKey (opened : OpensKey stored message) : Reaches stored message := by
  rcases opened with ⟨list, openedList, found⟩
  have first := hasFirst_of_found found
  cases openedList with
  | list held => exact .list (hasLastKey_of_holds held) first
  | threshold held foundList =>
    exact .threshold (hasLastKey_of_holds held) (hasFirst_of_found foundList) first

/-- A primitive key that is stored stands in a message that is reached. -/
theorem Stores.exists_reaches
    {kind : PrimitiveKind} {bytes : List UInt8} (stores : Stores kind bytes stored) :
    ∃ message, Reaches stored message ∧ HasLastKey message kind.field bytes := by
  cases stores with
  | alone held => exact ⟨stored, .itself, hasLastKey_of_holds held⟩
  | @first key opened held => exact ⟨key, reaches_of_opensKey opened, hasLastKey_of_holds held⟩

end Stored

/-! ## What is shown -/

theorem PrimitiveKind.type_ne_encoded (kind : PrimitiveKind) : kind.type ≠ .encoded := by
  cases kind <;> decide

theorem PrimitiveKind.type_injective : Function.Injective type := by
  intro kind kind' same
  cases kind <;> cases kind' <;> cases same <;> rfl

theorem primitive_noKey : primitive noKey = .ok none := by
  cbv

/-- Where no key is not what is stored, a primitive key is shown or the stored bytes are. -/
theorem stores_or_decode_eq_raw {stored : List UInt8} (different : stored ≠ noKey) :
    (∃ kind bytes, Stores kind bytes stored) ∨ decode stored = some (raw stored) := by
  by_cases stores : ∃ kind bytes, Stores kind bytes stored
  · exact .inl stores
  · right
    rw [decode_eq_raw_iff different]
    intro kind bytes held
    exact stores ⟨kind, bytes, held⟩

theorem decode_eq_none_iff {stored : List UInt8} : decode stored = none ↔ stored = noKey := by
  constructor
  · intro nothing
    by_contra different
    rcases stores_or_decode_eq_raw different with ⟨kind, bytes, stores⟩ | isRaw
    · cases nothing.symm.trans (decode_of_stores stores)
    · cases nothing.symm.trans isRaw
  · rintro rfl
    exact if_pos rfl

/-- Bytes that cannot be read are shown as they are. -/
theorem decode_of_error
    {stored : List UInt8} {fault : Fault} (failed : primitive stored = .error fault) :
    decode stored = some (raw stored) := by
  have different : stored ≠ noKey := by
    rintro rfl
    cases failed.symm.trans primitive_noKey
  rw [decode_of_ne_noKey different, failed]

/-- A key that is shown is the stored bytes or a primitive key in them. -/
theorem eq_raw_or_stores
    {stored : List UInt8} {key : Key} (shown : decode stored = some key) :
    key = raw stored ∨ ∃ (kind : PrimitiveKind) (bytes : List UInt8),
      Stores kind bytes stored ∧ key = ⟨kind.type, Text.Hex.write bytes⟩ := by
  have different : stored ≠ noKey := by
    rintro rfl
    cases shown.symm.trans (decode_eq_none_iff.mpr rfl)
  rcases stores_or_decode_eq_raw different with ⟨kind, bytes, stores⟩ | isRaw
  · refine .inr ⟨kind, bytes, stores, ?_⟩
    exact Option.some.inj (shown.symm.trans (decode_of_stores stores))
  · exact .inl (Option.some.inj (shown.symm.trans isRaw))

/--
Something is shown for all stored bytes but the two that stand for no key, also
where reading them fails at any depth: then it is the stored bytes.  An encoded
key shows the stored bytes as well.  A key of a primitive kind shows a slice of
them, the payload of a field with the number of the kind and with a length in
front: the last key field of the stored message, or of the first key in the list
or threshold key that is its last key field.
-/
theorem decode_provenance (stored : List UInt8) :
    (decode stored = none ↔ stored = [0x32, 0x00]) ∧
      (∀ fault, primitive stored = .error fault → decode stored = some (raw stored)) ∧
      ∀ key, decode stored = some key →
        (key.type = .encoded → key.hex = Text.Hex.write stored) ∧
          ∀ kind : PrimitiveKind, key.type = kind.type →
            ∃ message payload, Reaches stored message ∧ HasLastKey message kind.field payload ∧
              payload <:+: stored ∧ key.hex = Text.Hex.write payload := by
  refine ⟨decode_eq_none_iff, fun _ => decode_of_error, ?_⟩
  intro key shown
  rcases eq_raw_or_stores shown with rfl | ⟨kind, bytes, stores, rfl⟩
  · refine ⟨fun _ => rfl, ?_⟩
    intro kind same
    exact absurd same.symm kind.type_ne_encoded
  · refine ⟨fun same => absurd same kind.type_ne_encoded, ?_⟩
    intro kind' same
    cases PrimitiveKind.type_injective same
    rcases stores.exists_reaches with ⟨message, reached, held⟩
    exact ⟨message, bytes, reached, held, held.isInfix.trans reached.isInfix, rfl⟩

end Key

end LedgerQuery
