import LedgerQuery.Key.Wire
import LedgerQuery.Text.Hex

/-!
# Stored keys

A stored key is a message with one of eight fields populated, of which the last one counts.  Two of
them are primitive keys, shown by their type and their bytes; a list of keys and a threshold key are
opened one level, where the first key stands for all.  Whatever else is stored is shown as it is.
-/

namespace LedgerQuery

/-- The type of a stored key. -/
inductive KeyType where
  | ecdsa
  | ed25519
  | encoded
  deriving DecidableEq, Repr

namespace KeyType

/-- The types in their canonical order. -/
def all : List KeyType :=
  [ecdsa, ed25519, encoded]

/-- The word of a type. -/
def word : KeyType → String
  | ecdsa => "ECDSA_SECP256K1"
  | ed25519 => "ED25519"
  | encoded => "ProtobufEncoded"

/-- The name of a type, in capitals. -/
def name : KeyType → String
  | ecdsa => "ECDSA_SECP256K1"
  | ed25519 => "ED25519"
  | encoded => "PROTOBUF_ENCODED"

end KeyType

/-- A key in canonical form. -/
structure Key where
  type : KeyType
  /-- The bytes in lower-case hexadecimal digits. -/
  hex : String
  deriving DecidableEq, Repr

namespace Key

/-- The field numbers of a key message that hold a key. -/
def isKeyField (number : Nat) : Bool :=
  1 ≤ number && number ≤ 8

/-- The field of an ED25519 key. -/
def ed25519Field : Nat := 2

/-- The field of a threshold key. -/
def thresholdField : Nat := 5

/-- The field of a list of keys. -/
def listField : Nat := 6

/-- The field of an ECDSA key over secp256k1. -/
def ecdsaField : Nat := 7

/-- The field of the keys in a list of keys. -/
def listKeysField : Nat := 1

/-- The field of the list of keys in a threshold key. -/
def thresholdKeysField : Nat := 2

/-- Why a stored key cannot be opened. -/
inductive Fault where
  /-- The bytes are no message. -/
  | wire (fault : Wire.Fault)
  /-- A key field has a payload without a length in front. -/
  | unexpectedType (wireType number : Nat)
  deriving DecidableEq, Repr

/-- The key field that counts among fields: the last one. -/
def select (selected : Option (Nat × List UInt8)) :
    List Wire.Field → Except Fault (Option (Nat × List UInt8))
  | [] => .ok selected
  | field :: rest =>
    if isKeyField field.number then
      match field.payload.delimited? with
      | some bytes => select (some (field.number, bytes)) rest
      | none => .error (.unexpectedType field.payload.wireType field.number)
    else select selected rest

/-- The populated key field of a message and its payload. -/
def parseMessage (bytes : List UInt8) : Except Fault (Option (Nat × List UInt8)) := do
  let fields ← (Wire.walk bytes).complete.mapError .wire
  select none fields

/-- The first key of a list of keys. -/
def firstOfList (bytes : List UInt8) : Except Fault (Option (List UInt8)) :=
  ((Wire.walk bytes).first listKeysField).mapError .wire

/-- The first key of a threshold key. -/
def firstOfThreshold (bytes : List UInt8) : Except Fault (Option (List UInt8)) := do
  match ← ((Wire.walk bytes).first thresholdKeysField).mapError .wire with
  | none => return none
  | some list => firstOfList list

/-- The first key inside a list or a threshold key; none for any other field. -/
def unwrap (number : Nat) (payload : List UInt8) :
    Option (Except Fault (Option (List UInt8))) :=
  if number = listField then some (firstOfList payload)
  else if number = thresholdField then some (firstOfThreshold payload)
  else none

/-- The key field of a message after one level of wrapping is opened. -/
def primitive (bytes : List UInt8) : Except Fault (Option (Nat × List UInt8)) := do
  match ← parseMessage bytes with
  | none => return none
  | some (number, payload) =>
    match unwrap number payload with
    | none => return some (number, payload)
    | some inner =>
      match ← inner with
      | none => return none
      | some bytes => parseMessage bytes

/-- The stored form of an entity without a key: an empty list of keys. -/
def noKey : List UInt8 :=
  [0x32, 0x00]

/-- A stored key shown as it is. -/
def raw (bytes : List UInt8) : Key :=
  ⟨.encoded, Text.Hex.write bytes⟩

/-- The canonical form of stored bytes; none for the stored form of no key. -/
def decode (bytes : List UInt8) : Option Key :=
  if bytes = noKey then none
  else
    match primitive bytes with
    | .ok (some (number, payload)) =>
      if number = ed25519Field then some ⟨.ed25519, Text.Hex.write payload⟩
      else if number = ecdsaField then some ⟨.ecdsa, Text.Hex.write payload⟩
      else some (raw bytes)
    | _ => some (raw bytes)

/-- The canonical form of what is stored for an entity, which may be nothing. -/
def ofStored (stored : Option (List UInt8)) : Option Key :=
  stored.bind decode

/-- The members of a key as they are shown to clients. -/
def members (key : Key) : List (String × String) :=
  [("_type", key.type.word), ("key", key.hex)]

end Key

end LedgerQuery
