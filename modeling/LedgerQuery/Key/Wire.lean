/-!
# Wire format of stored keys

A message is a sequence of fields.  A field is a tag, holding its number and the type of its
payload, and the payload: a number of variable length, eight or four bytes, or a length with that
many bytes.  Numbers are written in groups of seven bits, lowest first, each byte but the last with
its top bit set.

The reader takes at most ten bytes for a number and does not cut its value to 64 bits.  A walk
yields the fields one after the other and stops at the first malformed one.
-/

namespace LedgerQuery.Wire

/-- Why bytes are no message. -/
inductive Fault where
  /-- A number does not end within the bytes or within ten bytes. -/
  | truncatedNumber
  /-- A tag has the field number zero. -/
  | zeroField
  /-- A payload is longer than the bytes that are left. -/
  | truncatedField
  /-- A tag has a payload type that is not read. -/
  | unsupportedType (wireType : Nat)
  deriving DecidableEq, Repr

/-- The payload of a field. -/
inductive Payload where
  | number (n : Nat)
  | eight (bytes : List UInt8)
  | delimited (bytes : List UInt8)
  | four (bytes : List UInt8)
  deriving DecidableEq, Repr

/-- The type of a payload as it stands in a tag. -/
def Payload.wireType : Payload → Nat
  | number _ => 0
  | eight _ => 1
  | delimited _ => 2
  | four _ => 5

/-- The bytes of a payload that has a length in front. -/
def Payload.delimited? : Payload → Option (List UInt8)
  | delimited bytes => some bytes
  | _ => none

/-- A field of a message. -/
structure Field where
  number : Nat
  payload : Payload
  deriving DecidableEq, Repr

/-! ### Writing -/

/-- A number in groups of seven bits, in as few bytes as possible. -/
def writeNumber (n : Nat) : List UInt8 :=
  if n < 128 then [UInt8.ofNat n]
  else UInt8.ofNat (n % 128 + 128) :: writeNumber (n / 128)
termination_by n

/-- The payload behind its tag. -/
def Payload.write : Payload → List UInt8
  | number n => writeNumber n
  | eight bytes | four bytes => bytes
  | delimited bytes => writeNumber bytes.length ++ bytes

/-- A field with its tag. -/
def Field.write (field : Field) : List UInt8 :=
  writeNumber (8 * field.number + field.payload.wireType) ++ field.payload.write

/-- The fields of a message, one after the other. -/
def write (fields : List Field) : List UInt8 :=
  fields.flatMap Field.write

/-! ### Reading -/

/-- Read a number of at most `most` bytes. -/
def readNumberWithin : (most : Nat) → List UInt8 → Except Fault (Nat × List UInt8)
  | 0, _ => .error .truncatedNumber
  | _ + 1, [] => .error .truncatedNumber
  | most + 1, byte :: bytes =>
    if byte.toNat < 128 then .ok (byte.toNat, bytes)
    else
      match readNumberWithin most bytes with
      | .error fault => .error fault
      | .ok (high, rest) => .ok (byte.toNat - 128 + 128 * high, rest)

/-- Read a number of at most ten bytes. -/
def readNumber (bytes : List UInt8) : Except Fault (Nat × List UInt8) :=
  readNumberWithin 10 bytes

/-- Take a number of bytes off the front. -/
def takeBytes (count : Nat) (bytes : List UInt8) : Except Fault (List UInt8 × List UInt8) :=
  if count ≤ bytes.length then .ok (bytes.take count, bytes.drop count)
  else .error .truncatedField

/-- Read the payload of a type. -/
def readPayload (wireType : Nat) (bytes : List UInt8) : Except Fault (Payload × List UInt8) :=
  match wireType with
  | 0 => (readNumber bytes).map fun read => (.number read.1, read.2)
  | 1 => (takeBytes 8 bytes).map fun taken => (.eight taken.1, taken.2)
  | 2 =>
    match readNumber bytes with
    | .error fault => .error fault
    | .ok (count, rest) => (takeBytes count rest).map fun taken => (.delimited taken.1, taken.2)
  | 5 => (takeBytes 4 bytes).map fun taken => (.four taken.1, taken.2)
  | _ => .error (.unsupportedType wireType)

/-- Read the first field. -/
def readField (bytes : List UInt8) : Except Fault (Field × List UInt8) :=
  match readNumber bytes with
  | .error fault => .error fault
  | .ok (tag, rest) =>
    if tag / 8 = 0 then .error .zeroField
    else (readPayload (tag % 8) rest).map fun read => (⟨tag / 8, read.1⟩, read.2)

theorem length_of_readNumberWithin {most n : Nat} {bytes rest : List UInt8}
    (read : readNumberWithin most bytes = .ok (n, rest)) : rest.length < bytes.length := by
  induction most generalizing n bytes with
  | zero => simp [readNumberWithin] at read
  | succ most ih =>
    cases bytes with
    | nil => simp [readNumberWithin] at read
    | cons byte bytes =>
      simp only [readNumberWithin] at read
      split at read
      · obtain ⟨rfl, rfl⟩ := Prod.mk.inj (Except.ok.inj read)
        simp
      · split at read
        · cases read
        · next found =>
          obtain ⟨_, rfl⟩ := Prod.mk.inj (Except.ok.inj read)
          have := ih found
          simp only [List.length_cons]
          omega

theorem length_of_takeBytes {count : Nat} {bytes taken rest : List UInt8}
    (read : takeBytes count bytes = .ok (taken, rest)) : rest.length ≤ bytes.length := by
  unfold takeBytes at read
  split at read
  · obtain ⟨_, rfl⟩ := Prod.mk.inj (Except.ok.inj read)
    simp
  · cases read

theorem map_ok {ε α β : Type} {x : Except ε α} {f : α → β} {b : β} (mapped : x.map f = .ok b) :
    ∃ a, x = .ok a ∧ f a = b := by
  cases x with
  | error _ => cases mapped
  | ok a => exact ⟨a, rfl, Except.ok.inj mapped⟩

theorem length_of_readPayload {wireType : Nat} {bytes rest : List UInt8} {payload : Payload}
    (read : readPayload wireType bytes = .ok (payload, rest)) : rest.length ≤ bytes.length := by
  unfold readPayload at read
  split at read
  · obtain ⟨⟨n, after⟩, found, same⟩ := map_ok read
    obtain ⟨_, rfl⟩ := Prod.mk.inj same
    exact Nat.le_of_lt (length_of_readNumberWithin found)
  · obtain ⟨⟨taken, after⟩, found, same⟩ := map_ok read
    obtain ⟨_, rfl⟩ := Prod.mk.inj same
    exact length_of_takeBytes found
  · split at read
    · cases read
    · next count after number =>
      obtain ⟨⟨taken, after'⟩, found, same⟩ := map_ok read
      obtain ⟨_, rfl⟩ := Prod.mk.inj same
      exact Nat.le_trans (length_of_takeBytes found)
        (Nat.le_of_lt (length_of_readNumberWithin number))
  · obtain ⟨⟨taken, after⟩, found, same⟩ := map_ok read
    obtain ⟨_, rfl⟩ := Prod.mk.inj same
    exact length_of_takeBytes found
  · cases read

/-- Reading a field uses up bytes. -/
theorem length_of_readField {bytes rest : List UInt8} {field : Field}
    (read : readField bytes = .ok (field, rest)) : rest.length < bytes.length := by
  unfold readField at read
  split at read
  · cases read
  · next tag after number =>
    split at read
    · cases read
    · obtain ⟨⟨payload, after'⟩, found, same⟩ := map_ok read
      obtain ⟨_, rfl⟩ := Prod.mk.inj same
      exact Nat.lt_of_le_of_lt (length_of_readPayload found) (length_of_readNumberWithin number)

/-- The fields found on a walk and the fault that ended it, if one did. -/
structure Walk where
  fields : List Field
  fault : Option Fault
  deriving DecidableEq, Repr

/-- Walk over the fields of a message. -/
def walk : List UInt8 → Walk
  | [] => ⟨[], none⟩
  | byte :: bytes =>
    match _read : readField (byte :: bytes) with
    | .error fault => ⟨[], some fault⟩
    | .ok (field, rest) =>
      let after := walk rest
      ⟨field :: after.fields, after.fault⟩
termination_by bytes => bytes.length
decreasing_by exact length_of_readField _read

namespace Walk

/-- All fields of a walk that reached the end. -/
def complete (w : Walk) : Except Fault (List Field) :=
  match w.fault with
  | none => .ok w.fields
  | some fault => .error fault

/-- The first payload of a field number that has a length in front.  A walk that ended before it is
a fault; what comes after it is not looked at. -/
def first (w : Walk) (number : Nat) : Except Fault (Option (List UInt8)) :=
  match w.fields.findSome? fun field =>
      if field.number = number then field.payload.delimited? else none with
  | some bytes => .ok (some bytes)
  | none =>
    match w.fault with
    | none => .ok none
    | some fault => .error fault

end Walk

end LedgerQuery.Wire
