import LedgerQuery.Proofs.Key.Message
import LedgerQuery.Proofs.Key.Wire

/-!
# Wrapped keys

A list of keys, and a threshold key around such a list, are written like any
other message.  The main statement is what becomes of them: the first key of the
list decides, whatever follows it and whatever the threshold is.  If it holds a
primitive key, this key is shown; in every other case the stored bytes are.
-/

namespace LedgerQuery.Key

open Wire (Field)

/-! ## Writing wrappers -/

/-- The field of the threshold in a threshold key. -/
def thresholdCountField : Nat := 1

/-- The fields of a list of keys. -/
def listFields (keys : List (List UInt8)) : List Field :=
  keys.map fun key => ⟨listKeysField, .delimited key⟩

/-- The fields of a threshold key. -/
def thresholdFields (count : Nat) (keys : List (List UInt8)) : List Field :=
  [⟨thresholdCountField, .number count⟩,
    ⟨thresholdKeysField, .delimited (Wire.write (listFields keys))⟩]

/-- What may stand around several keys. -/
inductive Wrapper where
  | list
  | threshold (count : Nat)

namespace Wrapper

/-- The key field of a wrapper. -/
def number : Wrapper → Nat
  | list => listField
  | threshold _ => thresholdField

/-- The payload of a wrapper around some keys. -/
def payload (keys : List (List UInt8)) : Wrapper → List UInt8
  | list => Wire.write (listFields keys)
  | threshold count => Wire.write (thresholdFields count keys)

/-- The message that holds some keys in a wrapper. -/
def write (wrapper : Wrapper) (keys : List (List UInt8)) : List UInt8 :=
  Wire.write [⟨wrapper.number, .delimited (wrapper.payload keys)⟩]

/-- The threshold, if there is one, has at most sixty-four bits. -/
def IsSmall : Wrapper → Prop
  | list => True
  | threshold count => count < 1 <<< 64

theorem length_payload_add_two_le (wrapper : Wrapper) (keys : List (List UInt8)) :
    (wrapper.payload keys).length + 2 ≤ (wrapper.write keys).length :=
  Wire.length_of_delimited List.mem_cons_self

theorem length_listFields_le (wrapper : Wrapper) (keys : List (List UInt8)) :
    (Wire.write (listFields keys)).length ≤ (wrapper.payload keys).length := by
  cases wrapper with
  | list => exact Nat.le_refl _
  | threshold count =>
    have inside : ⟨thresholdKeysField, .delimited (Wire.write (listFields keys))⟩ ∈
        thresholdFields count keys :=
      List.mem_cons_of_mem _ List.mem_cons_self
    exact Nat.le_of_add_right_le (Wire.length_of_delimited inside)

/-- A wrapper around at least one key is not the stored form of no key. -/
theorem write_ne_noKey
    (wrapper : Wrapper) (first : List UInt8) (others : List (List UInt8)) :
    wrapper.write (first :: others) ≠ noKey := by
  have inside : ⟨listKeysField, .delimited first⟩ ∈ listFields (first :: others) :=
    List.mem_cons_self
  have inner := Wire.length_of_delimited inside
  have middle := wrapper.length_listFields_le (first :: others)
  have outer := wrapper.length_payload_add_two_le (first :: others)
  intro same
  rw [same, noKey, List.length_cons, List.length_singleton] at outer
  omega

end Wrapper

/-! ## Opening wrappers -/

theorem walk_listFields
    {keys : List (List UInt8)} (short : (Wire.write (listFields keys)).length < 1 <<< 64) :
    Wire.walk (Wire.write (listFields keys)) = ⟨listFields keys, none⟩ := by
  apply Wire.walk_write
  intro field member
  rcases List.mem_map.mp member with ⟨key, -, rfl⟩
  have fits : key.length < 1 <<< 64 :=
    Nat.lt_of_le_of_lt (Nat.le_of_add_right_le (Wire.length_of_delimited member)) short
  exact Field.isWellFormed_of_small (by decide : listKeysField ≠ 0)
    (by decide : listKeysField < 1 <<< 60) fits

theorem walk_thresholdFields
    {count : Nat} (small : count < 1 <<< 64) {keys : List (List UInt8)}
    (short : (Wire.write (listFields keys)).length < 1 <<< 64) :
    Wire.walk (Wire.write (thresholdFields count keys)) = ⟨thresholdFields count keys, none⟩ := by
  apply Wire.walk_write
  rw [thresholdFields, List.forall_mem_cons, List.forall_mem_singleton]
  constructor
  · exact Field.isWellFormed_of_small (by decide : thresholdCountField ≠ 0)
      (by decide : thresholdCountField < 1 <<< 60) small
  · exact Field.isWellFormed_of_small (by decide : thresholdKeysField ≠ 0)
      (by decide : thresholdKeysField < 1 <<< 60) short

theorem firstOfList_write
    {first : List UInt8} {others : List (List UInt8)}
    (short : (Wire.write (listFields (first :: others))).length < 1 <<< 64) :
    firstOfList (Wire.write (listFields (first :: others))) = .ok (some first) := by
  rw [firstOfList, walk_listFields short]
  rfl

theorem firstOfThreshold_write
    {count : Nat} (small : count < 1 <<< 64)
    {first : List UInt8} {others : List (List UInt8)}
    (short : (Wire.write (listFields (first :: others))).length < 1 <<< 64) :
    firstOfThreshold (Wire.write (thresholdFields count (first :: others))) =
      .ok (some first) := by
  rw [firstOfThreshold, walk_thresholdFields small short]
  exact firstOfList_write short

/-- A message whose only field has a key number and a length in front holds this field. -/
theorem holds_write
    {number : Nat} (isKey : isKeyField number = true)
    {payload : List UInt8} (short : payload.length < 1 <<< 64) :
    Holds (Wire.write [⟨number, .delimited payload⟩]) number payload := by
  have range := isKey
  rw [isKeyField, Bool.and_eq_true, decide_eq_true_eq, decide_eq_true_eq] at range
  have small : number < 1 <<< 60 := Nat.lt_of_le_of_lt range.2 (by decide)
  refine ⟨[⟨number, .delimited payload⟩], ?_, ?_, ?_⟩
  · apply Wire.walk_write
    rw [List.forall_mem_singleton]
    exact Field.isWellFormed_of_small (Nat.ne_of_gt range.1) small short
  · intro field member _
    rw [List.mem_singleton.mp member]
    rfl
  · rw [keyFields_cons_delimited isKey rfl]
    rfl

section Wrapped

variable {wrapper : Wrapper} {first : List UInt8} {others : List (List UInt8)}

theorem Wrapper.unwrap_payload
    (small : wrapper.IsSmall)
    (short : (wrapper.payload (first :: others)).length < 1 <<< 64) :
    unwrap wrapper.number (wrapper.payload (first :: others)) = some (.ok (some first)) := by
  have shortList := Nat.lt_of_le_of_lt (wrapper.length_listFields_le (first :: others)) short
  cases wrapper with
  | list => exact congrArg some (firstOfList_write shortList)
  | threshold count => exact congrArg some (firstOfThreshold_write small shortList)

/-- The first key in a wrapper is read in place of the wrapper. -/
theorem primitive_write
    (small : wrapper.IsSmall)
    (short : (wrapper.write (first :: others)).length < 1 <<< 64) :
    primitive (wrapper.write (first :: others)) = parseMessage first := by
  have shortPayload : (wrapper.payload (first :: others)).length < 1 <<< 64 := by
    have outer := wrapper.length_payload_add_two_le (first :: others)
    omega
  have isKey : isKeyField wrapper.number = true := by
    cases wrapper <;> rfl
  have held := parseMessage_eq_ok_some_iff.mpr (holds_write isKey shortPayload)
  rw [primitive, Wrapper.write, held]
  dsimp only [bind, Except.bind]
  rw [Wrapper.unwrap_payload small shortPayload]

/-! ## The key that is shown -/

theorem decode_of_ne_noKey
    {stored : List UInt8} (different : stored ≠ noKey) :
    decode stored =
      match primitive stored with
      | .ok (some (number, payload)) =>
        if number = ed25519Field then some ⟨.ed25519, Text.Hex.write payload⟩
        else if number = ecdsaField then some ⟨.ecdsa, Text.Hex.write payload⟩
        else some (raw stored)
      | _ => some (raw stored) := by
  rw [decode]
  exact if_neg different

/--
The first key in a list of keys or in a threshold key stands for all.  If it
holds an ED25519 key or an ECDSA key, this one is shown; in every other case, be
it empty, malformed, of another kind or a wrapper itself, the stored bytes are.
Lengths take as many bytes as they need; they and the threshold have at most
sixty-four bits.
-/
theorem decode_write
    (small : wrapper.IsSmall)
    (short : (wrapper.write (first :: others)).length < 1 <<< 64) :
    let stored := wrapper.write (first :: others)
    (∀ payload, Holds first ed25519Field payload →
      decode stored = some ⟨.ed25519, Text.Hex.write payload⟩) ∧
    (∀ payload, Holds first ecdsaField payload →
      decode stored = some ⟨.ecdsa, Text.Hex.write payload⟩) ∧
    ((∀ payload, ¬Holds first ed25519Field payload ∧ ¬Holds first ecdsaField payload) →
      decode stored = some (raw stored)) := by
  intro stored
  have decoded := decode_of_ne_noKey (wrapper.write_ne_noKey first others)
  rw [primitive_write small short] at decoded
  refine ⟨?_, ?_, ?_⟩
  · intro payload held
    rw [parseMessage_eq_ok_some_iff.mpr held] at decoded
    exact decoded
  · intro payload held
    rw [parseMessage_eq_ok_some_iff.mpr held] at decoded
    exact decoded
  · intro others
    rw [decoded]
    split
    · next number payload read =>
      have held := parseMessage_eq_ok_some_iff.mp read
      have notEd25519 : number ≠ ed25519Field := by
        rintro rfl
        exact (others payload).1 held
      have notEcdsa : number ≠ ecdsaField := by
        rintro rfl
        exact (others payload).2 held
      rw [if_neg notEd25519, if_neg notEcdsa]
    · rfl

end Wrapped

/-- The first key holds an ECDSA key and behind it an ED25519 key of two hundred bytes, of which the
last counts; the second key is malformed. -/
theorem decode_write_threshold :
    let bytes : List UInt8 := List.replicate 200 0xab
    let fields : List Field := [⟨ecdsaField, .delimited [1, 2]⟩, ⟨ed25519Field, .delimited bytes⟩]
    let wrapper := Wrapper.threshold 300
    let stored := wrapper.write [Wire.write fields, [0xff]]
    wrapper.IsSmall ∧ stored.length < 1 <<< 64 ∧ Holds (Wire.write fields) ed25519Field bytes ∧
      decode stored = some ⟨.ed25519, Text.Hex.write bytes⟩ := by
  intro bytes fields wrapper stored
  have small : wrapper.IsSmall := by
    show 300 < 1 <<< 64
    decide
  have short : stored.length < 1 <<< 64 := by
    decide +kernel
  have held : Holds (Wire.write fields) ed25519Field bytes := by
    have count : bytes.length = 200 := List.length_replicate
    have few : bytes.length < 1 <<< 64 := by
      rw [count]
      decide
    have haveLengths : HaveLengths fields :=
      haveLengths_cons.mpr ⟨fun _ => rfl, haveLengths_cons.mpr ⟨fun _ => rfl, haveLengths_nil⟩⟩
    refine ⟨fields, Wire.walk_write ?_, haveLengths, rfl⟩
    rw [List.forall_mem_cons, List.forall_mem_singleton]
    constructor
    · exact Field.isWellFormed_of_small (by decide) (by decide) (by decide : 2 < 1 <<< 64)
    · exact Field.isWellFormed_of_small (by decide) (by decide) few
  exact ⟨small, short, held, (decode_write small short).1 bytes held⟩

end LedgerQuery.Key
