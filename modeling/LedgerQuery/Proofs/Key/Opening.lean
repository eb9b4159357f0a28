import LedgerQuery.Proofs.Key.Wrapper
import LedgerQuery.Proofs.Outcome
import Mathlib

/-!
# Opened keys

A stored key is opened layer by layer: the message itself, the threshold key or
the list of keys that it selects, the list inside a threshold key, and the first
key of the list.  The message and the first key are walked to their end; of what
lies between them only the fields up to the one that is asked for are seen.

The main statement is about malformed layers.  The stored bytes are shown as they
are, unless a list or a threshold key is malformed behind the first key and this
key is a primitive one.
-/

namespace LedgerQuery

namespace Wire

/-- A walk over the bytes ends with a fault. -/
def IsMalformed (bytes : List UInt8) : Prop :=
  (walk bytes).fault.isSome = true

/-- The first payload of a field number that has a length in front, as far as the walk got. -/
def Walk.found? (w : Walk) (number : Nat) : Option (List UInt8) :=
  w.fields.findSome? fun field =>
    if field.number = number then field.payload.delimited? else none

theorem Walk.first_eq_ok_some_iff {w : Walk} {number : Nat} {bytes : List UInt8} :
    w.first number = .ok (some bytes) ↔ w.found? number = some bytes := by
  rw [first, ← found?]
  cases w.found? number with
  | some found => simp
  | none => cases w.fault <;> simp

theorem isMalformed_of_walk
    {bytes : List UInt8} {fields : List Field} {fault : Fault}
    (walked : walk bytes = ⟨fields, some fault⟩) :
    IsMalformed bytes := by
  rw [IsMalformed, walked]
  rfl

theorem not_isMalformed_of_walk
    {bytes : List UInt8} {fields : List Field} (walked : walk bytes = ⟨fields, none⟩) :
    ¬IsMalformed bytes := by
  rw [IsMalformed, walked]
  exact Bool.false_ne_true

end Wire

namespace Key

open Wire (IsMalformed)

/-! ## Primitive keys -/

/-- The kinds of keys that are shown by their own bytes. -/
inductive PrimitiveKind where
  | ed25519
  | ecdsa
  deriving DecidableEq, Repr

namespace PrimitiveKind

/-- The field of a key of the kind. -/
def field : PrimitiveKind → Nat
  | ed25519 => ed25519Field
  | ecdsa => ecdsaField

/-- The type under which a key of the kind is shown. -/
def type : PrimitiveKind → KeyType
  | ed25519 => .ed25519
  | ecdsa => .ecdsa

end PrimitiveKind

/-- A message holds a key that is shown by its own bytes. -/
def HoldsPrimitive (bytes : List UInt8) : Prop :=
  ∃ (kind : PrimitiveKind) (payload : List UInt8), Holds bytes kind.field payload

theorem Holds.not_isMalformed
    {bytes : List UInt8} {number : Nat} {payload : List UInt8}
    (held : Holds bytes number payload) :
    ¬IsMalformed bytes := by
  rcases held with ⟨fields, walked, -, -⟩
  exact Wire.not_isMalformed_of_walk walked

/-- A message holds one key at most. -/
theorem Holds.unique
    {bytes : List UInt8} {number number' : Nat} {payload payload' : List UInt8}
    (held : Holds bytes number payload) (held' : Holds bytes number' payload') :
    number = number' ∧ payload = payload' := by
  have same := (parseMessage_eq_ok_some_iff.mpr held).symm.trans
    (parseMessage_eq_ok_some_iff.mpr held')
  simpa using same

/-! ## Layers -/

/-- The list of keys that a stored key opens: its own, or the one inside its threshold key. -/
inductive OpensList (stored : List UInt8) : List UInt8 → Prop where
  | list {payload : List UInt8} (held : Holds stored listField payload) : OpensList stored payload
  | threshold {payload list : List UInt8} (held : Holds stored thresholdField payload)
    (found : (Wire.walk payload).found? thresholdKeysField = some list) : OpensList stored list

/-- The first key of the list that a stored key opens. -/
def OpensKey (stored key : List UInt8) : Prop :=
  ∃ list, OpensList stored list ∧ (Wire.walk list).found? listKeysField = some key

/-- The messages that a stored key consists of as far as it is opened. -/
inductive Layer (stored : List UInt8) : List UInt8 → Prop where
  | outer : Layer stored stored
  | threshold {payload : List UInt8} (held : Holds stored thresholdField payload) :
    Layer stored payload
  | list {list : List UInt8} (opened : OpensList stored list) : Layer stored list
  | key {key : List UInt8} (opened : OpensKey stored key) : Layer stored key

/-- A primitive key is stored: alone, or first in the list that is opened. -/
inductive Stores (kind : PrimitiveKind) (bytes stored : List UInt8) : Prop where
  | alone (held : Holds stored kind.field bytes)
  | first {key : List UInt8} (opened : OpensKey stored key) (held : Holds key kind.field bytes)

section Layers

variable {stored : List UInt8}

theorem OpensList.unique
    {list list' : List UInt8} (opened : OpensList stored list) (opened' : OpensList stored list') :
    list = list' := by
  cases opened with
  | list held =>
    cases opened' with
    | list held' => exact (held.unique held').2
    | threshold held' _ => cases (held.unique held').1
  | threshold held found =>
    cases opened' with
    | list held' => cases (held.unique held').1
    | threshold held' found' =>
      rw [(held.unique held').2, found'] at found
      exact (Option.some.inj found).symm

theorem OpensKey.unique
    {key key' : List UInt8} (opened : OpensKey stored key) (opened' : OpensKey stored key') :
    key = key' := by
  rcases opened with ⟨list, openedList, found⟩
  rcases opened' with ⟨list', openedList', found'⟩
  rw [openedList.unique openedList', found'] at found
  exact (Option.some.inj found).symm

/-- A message that holds a primitive key opens no list. -/
theorem OpensList.not_holds
    {list : List UInt8} (opened : OpensList stored list)
    (kind : PrimitiveKind) (payload : List UInt8) :
    ¬Holds stored kind.field payload := by
  intro primitive
  cases opened with
  | list held =>
    have same := (held.unique primitive).1
    cases kind <;> cases same
  | threshold held _ =>
    have same := (held.unique primitive).1
    cases kind <;> cases same

/-! ## Opening -/

theorem firstOfList_eq_ok_some_iff {list key : List UInt8} :
    firstOfList list = .ok (some key) ↔ (Wire.walk list).found? listKeysField = some key := by
  rw [firstOfList, mapError_eq_ok, Wire.Walk.first_eq_ok_some_iff]

theorem firstOfThreshold_eq_ok_some_iff {payload key : List UInt8} :
    firstOfThreshold payload = .ok (some key) ↔
      ∃ list, (Wire.walk payload).found? thresholdKeysField = some list ∧
        (Wire.walk list).found? listKeysField = some key := by
  simp only [← firstOfList_eq_ok_some_iff]
  simp only [← Wire.Walk.first_eq_ok_some_iff]
  rw [firstOfThreshold, bind_eq_ok]
  simp only [mapError_eq_ok]
  constructor
  · rintro ⟨found, first, opened⟩
    cases found with
    | none => cases opened
    | some list => exact ⟨list, first, opened⟩
  · rintro ⟨list, first, opened⟩
    exact ⟨some list, first, opened⟩

/-- The first key behind a field that is opened, whether this is a list or a threshold key. -/
theorem opensKey_iff {key : List UInt8} :
    OpensKey stored key ↔
      ∃ number payload, Holds stored number payload ∧
        unwrap number payload = some (.ok (some key)) := by
  constructor
  · rintro ⟨list, openedList, found⟩
    cases openedList with
    | list held =>
      refine ⟨listField, list, held, ?_⟩
      rw [unwrap, if_pos rfl, firstOfList_eq_ok_some_iff.mpr found]
    | @threshold payload _ held foundList =>
      refine ⟨thresholdField, payload, held, ?_⟩
      rw [unwrap, if_neg (by decide), if_pos rfl,
        firstOfThreshold_eq_ok_some_iff.mpr ⟨list, foundList, found⟩]
  · rintro ⟨number, payload, held, unwrapped⟩
    rw [unwrap] at unwrapped
    split_ifs at unwrapped with isList isThreshold
    · rw [isList] at held
      exact ⟨payload, .list held, firstOfList_eq_ok_some_iff.mp (Option.some.inj unwrapped)⟩
    · rw [isThreshold] at held
      rcases firstOfThreshold_eq_ok_some_iff.mp (Option.some.inj unwrapped) with
        ⟨list, foundList, found⟩
      exact ⟨list, .threshold held foundList, found⟩

theorem PrimitiveKind.unwrap_field (kind : PrimitiveKind) (payload : List UInt8) :
    unwrap kind.field payload = none := by
  cases kind <;> rfl

/-- What is read is the key that is stored. -/
theorem primitive_eq_ok_iff {kind : PrimitiveKind} {bytes : List UInt8} :
    primitive stored = .ok (some (kind.field, bytes)) ↔ Stores kind bytes stored := by
  constructor
  · intro read
    rcases bind_eq_ok.mp read with ⟨_ | ⟨number, payload⟩, parsed, read⟩
    · cases read
    · have held := parseMessage_eq_ok_some_iff.mp parsed
      dsimp only at read
      split at read
      · cases read
        exact .alone held
      · next inner unwrapped =>
        rcases bind_eq_ok.mp read with ⟨_ | key, opened, read⟩
        · cases read
        · rw [opened] at unwrapped
          exact .first (opensKey_iff.mpr ⟨number, payload, held, unwrapped⟩)
            (parseMessage_eq_ok_some_iff.mp read)
  · rintro (held | ⟨opened, inside⟩)
    · rw [primitive, parseMessage_eq_ok_some_iff.mpr held, ok_bind]
      dsimp only
      rw [kind.unwrap_field]
      rfl
    · rcases opensKey_iff.mp opened with ⟨number, payload, held, unwrapped⟩
      rw [primitive, parseMessage_eq_ok_some_iff.mpr held, ok_bind]
      dsimp only
      rw [unwrapped]
      exact parseMessage_eq_ok_some_iff.mpr inside

/-! ## The key that is shown -/

theorem walk_noKey : Wire.walk noKey = ⟨[⟨listField, .delimited []⟩], none⟩ := by
  cbv

theorem walk_nil : Wire.walk [] = ⟨[], none⟩ := by
  rw [Wire.walk]

theorem holds_noKey : Holds noKey listField [] :=
  ⟨_, walk_noKey, haveLengths_cons.mpr ⟨fun _ => rfl, haveLengths_nil⟩, rfl⟩

/-- The stored form of no key opens an empty list. -/
theorem not_opensKey_noKey (key : List UInt8) : ¬OpensKey noKey key := by
  rintro ⟨list, openedList, found⟩
  rw [← (OpensList.list holds_noKey).unique openedList, walk_nil] at found
  cases found

theorem not_stores_noKey (kind : PrimitiveKind) (bytes : List UInt8) :
    ¬Stores kind bytes noKey := by
  rintro (held | ⟨opened, -⟩)
  · exact (OpensList.list holds_noKey).not_holds kind bytes held
  · exact not_opensKey_noKey _ opened

/-- All layers of the stored form of no key are well formed. -/
theorem not_isMalformed_of_layer_noKey
    {layer : List UInt8} (isLayer : Layer noKey layer) :
    ¬IsMalformed layer := by
  cases isLayer with
  | outer => exact Wire.not_isMalformed_of_walk walk_noKey
  | threshold other => cases (holds_noKey.unique other).1
  | list opened =>
    rw [← (OpensList.list holds_noKey).unique opened]
    exact Wire.not_isMalformed_of_walk walk_nil
  | key opened => exact absurd opened (not_opensKey_noKey layer)

/-- A primitive key is shown by its type and its bytes. -/
theorem decode_of_stores
    {kind : PrimitiveKind} {bytes : List UInt8} (stores : Stores kind bytes stored) :
    decode stored = some ⟨kind.type, Text.Hex.write bytes⟩ := by
  have different : stored ≠ noKey := by
    rintro rfl
    exact not_stores_noKey kind bytes stores
  rw [decode_of_ne_noKey different, primitive_eq_ok_iff.mpr stores]
  cases kind <;> rfl

/-- What stores no primitive key is shown as it is, and nothing else is. -/
theorem decode_eq_raw_iff (different : stored ≠ noKey) :
    decode stored = some (raw stored) ↔ ∀ kind bytes, ¬Stores kind bytes stored := by
  constructor
  · intro isRaw kind bytes stores
    rw [decode_of_stores stores] at isRaw
    cases kind <;> cases isRaw
  · intro noPrimitive
    rw [decode_of_ne_noKey different]
    split
    · next number payload read =>
      have notEd25519 : number ≠ ed25519Field := by
        rintro rfl
        exact noPrimitive .ed25519 payload (primitive_eq_ok_iff.mp read)
      have notEcdsa : number ≠ ecdsaField := by
        rintro rfl
        exact noPrimitive .ecdsa payload (primitive_eq_ok_iff.mp read)
      rw [if_neg notEd25519, if_neg notEcdsa]
    · rfl

/-- A stored key with a malformed layer holds no primitive key itself. -/
theorem not_holds_of_isMalformed
    {layer : List UInt8} (isLayer : Layer stored layer) (malformed : IsMalformed layer)
    (kind : PrimitiveKind) (payload : List UInt8) :
    ¬Holds stored kind.field payload := by
  cases isLayer with
  | outer =>
    intro held
    exact held.not_isMalformed malformed
  | threshold held =>
    intro primitive
    have same := (held.unique primitive).1
    cases kind <;> cases same
  | list opened => exact opened.not_holds kind payload
  | key opened =>
    rcases opened with ⟨list, openedList, -⟩
    exact openedList.not_holds kind payload

/--
A stored key with a malformed layer is shown as it is, unless the first key of
its list can be read and is a primitive one.  The first key is not read where the
message itself or this key is malformed, so these faults always show; a list or a
threshold key is not looked at behind the first key, so a fault there goes
unnoticed.
-/
theorem decode_eq_raw_iff_of_isMalformed
    {layer : List UInt8} (isLayer : Layer stored layer) (malformed : IsMalformed layer) :
    (decode stored = some (raw stored) ↔
        ∀ key, OpensKey stored key → ¬HoldsPrimitive key) ∧
      (layer = stored ∨ OpensKey stored layer → decode stored = some (raw stored)) := by
  have different : stored ≠ noKey := by
    rintro rfl
    exact not_isMalformed_of_layer_noKey isLayer malformed
  have shown : decode stored = some (raw stored) ↔
      ∀ key, OpensKey stored key → ¬HoldsPrimitive key := by
    rw [decode_eq_raw_iff different]
    constructor
    · rintro none key opened ⟨kind, bytes, held⟩
      exact none kind bytes (.first opened held)
    · rintro none kind bytes (held | ⟨opened, held⟩)
      · exact not_holds_of_isMalformed isLayer malformed kind bytes held
      · exact none _ opened ⟨kind, bytes, held⟩
  refine ⟨shown, ?_⟩
  rw [shown]
  rintro (rfl | openedLayer) key opened ⟨kind, payload, held⟩
  · rcases opened with ⟨list, openedList, -⟩
    cases openedList with
    | list outer => exact outer.not_isMalformed malformed
    | threshold outer _ => exact outer.not_isMalformed malformed
  · rw [openedLayer.unique opened] at malformed
    exact held.not_isMalformed malformed

end Layers

/-- The first key of a threshold key is of another kind, so the fault in the list after it shows. -/
theorem decode_eq_raw_of_contract :
    let contract : List UInt8 := [0x0a, 0x02, 0x18, 0x05]
    let list : List UInt8 := [0x0a, 0x04] ++ contract ++ [0x0a, 0xff]
    let stored : List UInt8 := [0x2a, 0x0c, 0x08, 0x01, 0x12, 0x08] ++ list
    Layer stored list ∧ IsMalformed list ∧ OpensKey stored contract ∧
      decode stored = some (raw stored) := by
  intro contract list stored
  have walkedKey : Wire.walk contract = ⟨[⟨1, .delimited [0x18, 0x05]⟩], none⟩ := by
    cbv
  have walkedList : Wire.walk list =
      ⟨[⟨listKeysField, .delimited contract⟩], some .truncatedNumber⟩ := by
    cbv
  have walkedThreshold : Wire.walk ([0x08, 0x01, 0x12, 0x08] ++ list) =
      ⟨[⟨thresholdCountField, .number 1⟩, ⟨thresholdKeysField, .delimited list⟩], none⟩ := by
    cbv
  have walked : Wire.walk stored =
      ⟨[⟨thresholdField, .delimited ([0x08, 0x01, 0x12, 0x08] ++ list)⟩], none⟩ := by
    cbv
  have held : Holds stored thresholdField ([0x08, 0x01, 0x12, 0x08] ++ list) :=
    ⟨_, walked, haveLengths_cons.mpr ⟨fun _ => rfl, haveLengths_nil⟩, rfl⟩
  have heldKey : Holds contract 1 [0x18, 0x05] :=
    ⟨_, walkedKey, haveLengths_cons.mpr ⟨fun _ => rfl, haveLengths_nil⟩, rfl⟩
  have openedList : OpensList stored list := .threshold held (by rw [walkedThreshold]; rfl)
  have opened : OpensKey stored contract := ⟨list, openedList, by rw [walkedList]; rfl⟩
  have malformed : IsMalformed list := Wire.isMalformed_of_walk walkedList
  refine ⟨.list openedList, malformed, opened, ?_⟩
  apply (decode_eq_raw_iff_of_isMalformed (.list openedList) malformed).1.mpr
  rintro key openedKey ⟨kind, payload, primitive⟩
  rw [openedKey.unique opened] at primitive
  have same := (heldKey.unique primitive).1
  cases kind <;> cases same

/-- A list of keys ends in the middle of its second key; the first one is shown nevertheless. -/
theorem decode_of_truncated_list :
    let bytes : List UInt8 := List.replicate 32 0xab
    let list : List UInt8 := [0x0a, 0x22, 0x12, 0x20] ++ bytes ++ [0x0a, 0x05]
    let stored : List UInt8 := [0x32, 0x26] ++ list
    Layer stored list ∧ IsMalformed list ∧
      decode stored = some ⟨.ed25519, Text.Hex.write bytes⟩ ∧
      decode stored ≠ some (raw stored) := by
  intro bytes list stored
  have walkedList : Wire.walk list =
      ⟨[⟨listKeysField, .delimited ([0x12, 0x20] ++ bytes)⟩], some .truncatedField⟩ := by
    cbv
  have walked : Wire.walk stored = ⟨[⟨listField, .delimited list⟩], none⟩ := by
    cbv
  have held : Holds stored listField list :=
    ⟨_, walked, haveLengths_cons.mpr ⟨fun _ => rfl, haveLengths_nil⟩, rfl⟩
  have shown : decode stored = some ⟨.ed25519, Text.Hex.write bytes⟩ := by
    cbv
  refine ⟨.list (.list held), Wire.isMalformed_of_walk walkedList, shown, ?_⟩
  rw [shown]
  intro same
  cases same

end Key

end LedgerQuery
