import LedgerQuery.Proofs.Key.Message
import LedgerQuery.Proofs.Key.Wire
import LedgerQuery.Proofs.Outcome

/-!
# Written messages

A message that is written field by field is read back field by field.  As a key
message it is refused when a field that holds a key has no length in front;
otherwise the last such field is the key, and the other fields, wherever they
stand, change nothing.
-/

namespace LedgerQuery

theorem Wire.Payload.delimited?_eq_none_iff {payload : Wire.Payload} :
    payload.delimited? = none ↔ payload.wireType ≠ 2 := by
  cases payload <;> simp [delimited?, wireType]

namespace Key

open Wire (Field)

/-! ## Messages that are walked to their end -/

section Walked

variable {bytes : List UInt8} {fields : List Field}

theorem parseMessage_of_walk (walked : Wire.walk bytes = ⟨fields, none⟩) :
    parseMessage bytes = select none fields := by
  rw [parseMessage, walked]
  rfl

theorem exists_select_error_iff {selected : Option (Nat × List UInt8)} :
    (∃ fault, select selected fields = .error fault) ↔ ¬HaveLengths fields := by
  constructor
  · rintro ⟨fault, failed⟩ haveLengths
    have selects : select selected fields = .ok ((keyFields fields).getLast?.or selected) :=
      select_eq_ok_iff.mpr ⟨haveLengths, rfl⟩
    cases failed.symm.trans selects
  · intro lacking
    cases outcome : select selected fields with
    | error fault => exact ⟨fault, rfl⟩
    | ok result => exact absurd (select_eq_ok_iff.mp outcome).1 lacking

theorem not_haveLengths_iff :
    ¬HaveLengths fields ↔
      ∃ field ∈ fields, isKeyField field.number = true ∧ field.payload.delimited? = none := by
  simp [HaveLengths]

theorem select_none_eq_ok_some_iff
    (haveLengths : HaveLengths fields) {number : Nat} {payload : List UInt8} :
    select none fields = .ok (some (number, payload)) ↔ IsLastKey fields number payload := by
  rw [select_eq_ok_iff, and_iff_right haveLengths, Option.or_none, eq_comm,
    getLast?_keyFields_eq_some_iff haveLengths]

theorem select_none_eq_ok_none_iff (haveLengths : HaveLengths fields) :
    select none fields = .ok none ↔ ∀ field ∈ fields, isKeyField field.number = false := by
  rw [select_eq_ok_iff, and_iff_right haveLengths, Option.or_none, eq_comm,
    getLast?_keyFields_eq_none_iff haveLengths]

end Walked

/-! ## Reading what is written -/

section Written

variable {fields : List Field} (wellFormed : ∀ field ∈ fields, field.IsWellFormed)

include wellFormed

/-- The number of a field is at least one, so it is the number of a key unless it is too large. -/
theorem isKeyField_iff {field : Field} (member : field ∈ fields) :
    isKeyField field.number = true ↔ field.number ≤ 8 := by
  have numbered := (wellFormed field member).numbered
  rw [isKeyField, Bool.and_eq_true, decide_eq_true_eq, decide_eq_true_eq]
  omega

theorem isKeyField_eq_false_iff {field : Field} (member : field ∈ fields) :
    isKeyField field.number = false ↔ 9 ≤ field.number := by
  rw [Bool.eq_false_iff, ne_eq, isKeyField_iff wellFormed member]
  omega

theorem not_haveLengths_iff_wireType :
    ¬HaveLengths fields ↔ ∃ field ∈ fields, field.number ≤ 8 ∧ field.payload.wireType ≠ 2 := by
  rw [not_haveLengths_iff]
  apply exists_congr
  intro field
  apply and_congr_right
  intro member
  rw [isKeyField_iff wellFormed member, Wire.Payload.delimited?_eq_none_iff]

theorem isLastKey_iff {number : Nat} {payload : List UInt8} :
    IsLastKey fields number payload ↔
      ∃ before behind, fields = before ++ ⟨number, .delimited payload⟩ :: behind ∧
        number ≤ 8 ∧ ∀ field ∈ behind, 9 ≤ field.number := by
  apply exists₂_congr
  intro before behind
  apply and_congr_right
  intro same
  have last : ⟨number, .delimited payload⟩ ∈ fields := by simp [same]
  apply and_congr (isKeyField_iff wellFormed last)
  apply forall₂_congr
  intro field member
  exact isKeyField_eq_false_iff wellFormed (by simp [same, member])

end Written

/--
A walk over written fields finds these fields, whatever their payloads are, and
reaches the end.  Read as a key message, they are refused exactly when a field
numbered one to eight has no length in front.  Otherwise the key is the last
field with such a number, behind which only others stand, and there is none
exactly when all fields have other numbers.
-/
theorem parseMessage_write
    {fields : List Field} (wellFormed : ∀ field ∈ fields, field.IsWellFormed) :
    Wire.walk (Wire.write fields) = ⟨fields, none⟩ ∧
      ((∃ fault, parseMessage (Wire.write fields) = .error fault) ↔
        ∃ field ∈ fields, field.number ≤ 8 ∧ field.payload.wireType ≠ 2) ∧
      ((∀ field ∈ fields, field.number ≤ 8 → field.payload.wireType = 2) →
        (∀ number payload, parseMessage (Wire.write fields) = .ok (some (number, payload)) ↔
          ∃ before behind, fields = before ++ ⟨number, .delimited payload⟩ :: behind ∧
            number ≤ 8 ∧ ∀ field ∈ behind, 9 ≤ field.number) ∧
        (parseMessage (Wire.write fields) = .ok none ↔ ∀ field ∈ fields, 9 ≤ field.number)) := by
  have walked := Wire.walk_write wellFormed
  rw [parseMessage_of_walk walked]
  refine ⟨walked, ?_, ?_⟩
  · rw [exists_select_error_iff, not_haveLengths_iff_wireType wellFormed]
  · intro delimited
    have haveLengths : HaveLengths fields := by
      by_contra lacking
      rcases (not_haveLengths_iff_wireType wellFormed).mp lacking with ⟨field, member, isKey, other⟩
      exact other (delimited field member isKey)
    constructor
    · intro number payload
      rw [select_none_eq_ok_some_iff haveLengths, isLastKey_iff wellFormed]
    · rw [select_none_eq_ok_none_iff haveLengths]
      exact forall₂_congr fun field member => isKeyField_eq_false_iff wellFormed member

/-- Numbers of ten bytes, tags of several bytes and a payload longer than a byte can say stand
around the two key fields, of which the last one is the key. -/
theorem parseMessage_write_ecdsa :
    let bytes : List UInt8 := List.replicate 200 0xab
    let fields : List Field :=
      [⟨300, .number ((1 <<< 64) - 1)⟩, ⟨2, .delimited bytes⟩,
        ⟨16, .eight [1, 2, 3, 4, 5, 6, 7, 8]⟩, ⟨7, .delimited [0x02, 0xff]⟩,
        ⟨(1 <<< 61) - 1, .four [0, 0, 0, 0]⟩, ⟨9, .delimited []⟩]
    (∀ field ∈ fields, field.IsWellFormed) ∧ Wire.walk (Wire.write fields) = ⟨fields, none⟩ ∧
      parseMessage (Wire.write fields) = .ok (some (7, [0x02, 0xff])) := by
  intro bytes fields
  have wellFormed : ∀ field ∈ fields, field.IsWellFormed := by
    have size : bytes.length < 1 <<< 64 := by
      rw [List.length_replicate]
      decide
    simp only [fields, List.forall_mem_cons]
    exact ⟨⟨by decide, by decide, (by decide : (1 <<< 64) - 1 < 1 <<< 64)⟩,
      ⟨by decide, by decide, size⟩, ⟨by decide, by decide, rfl⟩,
      ⟨by decide, by decide, (by decide : 2 < 1 <<< 64)⟩, ⟨by decide, by decide, rfl⟩,
      ⟨by decide, by decide, (by decide : 0 < 1 <<< 64)⟩, List.forall_mem_nil _⟩
  rcases parseMessage_write wellFormed with ⟨walked, -, parsed⟩
  refine ⟨wellFormed, walked, ?_⟩
  apply ((parsed (by decide)).1 7 [0x02, 0xff]).mpr
  exact ⟨fields.take 3, fields.drop 4, rfl, by decide, by decide⟩

end Key

end LedgerQuery
