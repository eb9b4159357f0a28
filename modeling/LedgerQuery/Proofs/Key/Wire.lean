import LedgerQuery.Key.Wire

/-!
# Reading what is written

A number of at most sixty-four bits is read back from what is written for it, in
front of any other bytes, and so are payloads and fields.  The main statement is
that a walk over written fields finds exactly these fields and reaches the end.
-/

namespace LedgerQuery.Wire

/-! ## Numbers -/

theorem toNat_ofNat_of_lt {n : Nat} (small : n < 256) : (UInt8.ofNat n).toNat = n := by
  rw [UInt8.toNat_ofNat']
  exact Nat.mod_eq_of_lt small

/-- A number of at most `more + 1` groups of seven bits is read back. -/
theorem readNumberWithin_writeNumber
    {more n : Nat} (fits : n < Nat.pow 128 (more + 1)) (rest : List UInt8) :
    readNumberWithin (more + 1) (writeNumber n ++ rest) = .ok (n, rest) := by
  induction more generalizing n with
  | zero =>
    have small : n < 128 := fits
    have byte := toNat_ofNat_of_lt (Nat.lt_trans small (by decide))
    rw [writeNumber, if_pos small, List.singleton_append, readNumberWithin, byte, if_pos small]
  | succ more ih =>
    by_cases small : n < 128
    · have byte := toNat_ofNat_of_lt (Nat.lt_trans small (by decide))
      rw [writeNumber, if_pos small, List.singleton_append, readNumberWithin, byte, if_pos small]
    · have byte : (UInt8.ofNat (n % 128 + 128)).toNat = n % 128 + 128 :=
        toNat_ofNat_of_lt (by omega)
      have fewer : n / 128 < Nat.pow 128 (more + 1) := by
        rw [Nat.div_lt_iff_lt_mul (by decide)]
        exact fits
      have high := ih fewer
      have whole : n % 128 + 128 - 128 + 128 * (n / 128) = n := by omega
      rw [writeNumber, if_neg small, List.cons_append, readNumberWithin, byte,
        if_neg (by omega : ¬n % 128 + 128 < 128), high]
      dsimp only
      rw [whole]

/-- A number of at most sixty-four bits is read back. -/
theorem readNumber_writeNumber
    {n : Nat} (fits : n < 1 <<< 64) (rest : List UInt8) :
    readNumber (writeNumber n ++ rest) = .ok (n, rest) :=
  readNumberWithin_writeNumber (Nat.lt_trans fits (by decide)) rest

/-! ## Fields -/

theorem takeBytes_append (bytes rest : List UInt8) :
    takeBytes bytes.length (bytes ++ rest) = .ok (bytes, rest) := by
  rw [takeBytes, if_pos (by simp), List.take_left, List.drop_left]

/-- A payload whose number or length has at most sixty-four bits, or whose size is that of its
type. -/
def Payload.IsWellFormed : Payload → Prop
  | number n => n < 1 <<< 64
  | eight bytes => bytes.length = 8
  | delimited bytes => bytes.length < 1 <<< 64
  | four bytes => bytes.length = 4

theorem readPayload_write
    {payload : Payload} (wellFormed : payload.IsWellFormed) (rest : List UInt8) :
    readPayload payload.wireType (payload.write ++ rest) = .ok (payload, rest) := by
  cases payload with
  | number n =>
    show (readNumber (writeNumber n ++ rest)).map _ = _
    rw [readNumber_writeNumber wellFormed]
    rfl
  | eight bytes =>
    have size : bytes.length = 8 := wellFormed
    show (takeBytes 8 (bytes ++ rest)).map _ = _
    rw [← size, takeBytes_append]
    rfl
  | delimited bytes =>
    have read : readNumber (writeNumber bytes.length ++ (bytes ++ rest)) =
        .ok (bytes.length, bytes ++ rest) :=
      readNumber_writeNumber wellFormed _
    rw [Payload.write, Payload.wireType, List.append_assoc, readPayload, read]
    dsimp only
    rw [takeBytes_append]
    rfl
  | four bytes =>
    have size : bytes.length = 4 := wellFormed
    show (takeBytes 4 (bytes ++ rest)).map _ = _
    rw [← size, takeBytes_append]
    rfl

theorem Payload.wireType_lt (payload : Payload) : payload.wireType < 8 := by
  cases payload <;> simp [wireType]

/-- A field with a number, whose tag has at most sixty-four bits and whose payload is well
formed. -/
structure Field.IsWellFormed (field : Field) : Prop where
  numbered : field.number ≠ 0
  tag : 8 * field.number + field.payload.wireType < 1 <<< 64
  payload : field.payload.IsWellFormed

/-- The tag of a small number fits whatever the payload is. -/
theorem Field.isWellFormed_of_small
    {field : Field} (numbered : field.number ≠ 0) (small : field.number < 1 <<< 60)
    (payload : field.payload.IsWellFormed) :
    field.IsWellFormed where
  numbered := numbered
  tag := by
    have bound : field.number < 1152921504606846976 := small
    have type := field.payload.wireType_lt
    show _ < 18446744073709551616
    omega
  payload := payload

theorem readField_write
    {field : Field} (wellFormed : field.IsWellFormed) (rest : List UInt8) :
    readField (field.write ++ rest) = .ok (field, rest) := by
  have type := field.payload.wireType_lt
  have number : (8 * field.number + field.payload.wireType) / 8 = field.number := by omega
  have wireType : (8 * field.number + field.payload.wireType) % 8 = field.payload.wireType := by
    omega
  rw [Field.write, List.append_assoc, readField, readNumber_writeNumber wellFormed.tag]
  dsimp only
  rw [number, wireType, if_neg wellFormed.numbered, readPayload_write wellFormed.payload]
  rfl

/-! ## Walks -/

/-- A walk goes on behind a field that can be read. -/
theorem walk_of_readField
    {bytes rest : List UInt8} {field : Field}
    (read : readField bytes = .ok (field, rest)) :
    walk bytes = ⟨field :: (walk rest).fields, (walk rest).fault⟩ := by
  cases bytes with
  | nil => cases read
  | cons byte bytes =>
    rw [walk]
    split
    · next failed =>
      rw [read] at failed
      cases failed
    · next found =>
      rw [read] at found
      cases found
      rfl

/-- A walk over written fields finds these fields and reaches the end. -/
theorem walk_write
    {fields : List Field} (wellFormed : ∀ field ∈ fields, field.IsWellFormed) :
    walk (write fields) = ⟨fields, none⟩ := by
  induction fields with
  | nil =>
    rw [write, List.flatMap_nil, walk]
  | cons field fields ih =>
    rw [List.forall_mem_cons] at wellFormed
    have others := ih wellFormed.2
    rw [write, List.flatMap_cons, walk_of_readField (readField_write wellFormed.1 _)]
    rw [write] at others
    rw [others]

/-! ## Sizes -/

theorem length_writeNumber_pos (n : Nat) : 0 < (writeNumber n).length := by
  rw [writeNumber]
  split <;> exact Nat.succ_pos _

theorem length_write_le
    {fields : List Field} {field : Field} (member : field ∈ fields) :
    field.write.length ≤ (write fields).length :=
  (List.sublist_flatten_of_mem (List.mem_map_of_mem member)).length_le

/-- A message is longer than the bytes in it by at least a tag and a length. -/
theorem length_of_delimited
    {fields : List Field} {number : Nat} {bytes : List UInt8}
    (member : ⟨number, .delimited bytes⟩ ∈ fields) :
    bytes.length + 2 ≤ (write fields).length := by
  have whole := length_write_le member
  rw [Field.write, List.length_append, Payload.write, List.length_append] at whole
  dsimp only at whole
  have tag := length_writeNumber_pos (8 * number + (Payload.delimited bytes).wireType)
  have length := length_writeNumber_pos bytes.length
  omega

end LedgerQuery.Wire
