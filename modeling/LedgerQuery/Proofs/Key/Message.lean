import LedgerQuery.Key.Basic

/-!
# The field that counts

Of the fields of a key message that hold a key the last one counts.  Here this is
said of the fields as a list, without the state of the reader: a message yields a
key exactly when a walk over it reaches the end, each of its key fields has a
length in front, and the last one of these is the key.
-/

namespace LedgerQuery.Key

/-- The number and the payload of a field that holds a key. -/
def keyField? (field : Wire.Field) : Option (Nat × List UInt8) :=
  if isKeyField field.number then field.payload.delimited?.map fun bytes => (field.number, bytes)
  else none

/-- The fields that hold keys, in order. -/
def keyFields (fields : List Wire.Field) : List (Nat × List UInt8) :=
  fields.filterMap keyField?

/-- Each field that holds a key has a length in front. -/
def HaveLengths (fields : List Wire.Field) : Prop :=
  ∀ field ∈ fields, isKeyField field.number = true → field.payload.delimited?.isSome = true

/-- A message is well formed, and the last of its key fields has a number and a payload. -/
def Holds (bytes : List UInt8) (number : Nat) (payload : List UInt8) : Prop :=
  ∃ fields, Wire.walk bytes = ⟨fields, none⟩ ∧ HaveLengths fields ∧
    (keyFields fields).getLast? = some (number, payload)

section Cons

variable {field : Wire.Field} {selected : Option (Nat × List UInt8)}

theorem haveLengths_nil : HaveLengths [] := by
  intro field impossible
  cases impossible

theorem haveLengths_cons {fields : List Wire.Field} :
    HaveLengths (field :: fields) ↔
      (isKeyField field.number = true → field.payload.delimited?.isSome = true) ∧
        HaveLengths fields :=
  List.forall_mem_cons

theorem keyFields_cons_other
    (other : isKeyField field.number = false) (fields : List Wire.Field) :
    keyFields (field :: fields) = keyFields fields := by
  have notKey : keyField? field = none := by
    rw [keyField?, other, if_neg Bool.false_ne_true]
  exact List.filterMap_cons_none notKey

theorem keyFields_cons_delimited
    (isKey : isKeyField field.number = true)
    {bytes : List UInt8} (delimited : field.payload.delimited? = some bytes)
    (fields : List Wire.Field) :
    keyFields (field :: fields) = (field.number, bytes) :: keyFields fields := by
  have key : keyField? field = some (field.number, bytes) := by
    rw [keyField?, if_pos isKey, delimited, Option.map_some]
  exact List.filterMap_cons_some key

theorem select_cons_other
    (other : isKeyField field.number = false) (fields : List Wire.Field) :
    select selected (field :: fields) = select selected fields := by
  rw [select, other, if_neg Bool.false_ne_true]

theorem select_cons_delimited
    (isKey : isKeyField field.number = true)
    {bytes : List UInt8} (delimited : field.payload.delimited? = some bytes)
    (fields : List Wire.Field) :
    select selected (field :: fields) = select (some (field.number, bytes)) fields := by
  rw [select, if_pos isKey, delimited]

theorem select_cons_undelimited
    (isKey : isKeyField field.number = true)
    (undelimited : field.payload.delimited? = none) (fields : List Wire.Field) :
    select selected (field :: fields) =
      .error (.unexpectedType field.payload.wireType field.number) := by
  rw [select, if_pos isKey, undelimited]

end Cons

/-- The last key field is selected, and there is a selection when all key fields have lengths. -/
theorem select_eq_ok_iff
    {selected result : Option (Nat × List UInt8)} {fields : List Wire.Field} :
    select selected fields = .ok result ↔
      HaveLengths fields ∧ result = (keyFields fields).getLast?.or selected := by
  induction fields generalizing selected with
  | nil =>
    rw [select, and_iff_right haveLengths_nil, Except.ok.injEq, eq_comm]
    rfl
  | cons field fields ih =>
    rw [haveLengths_cons]
    cases isKey : isKeyField field.number with
    | false => simp [select_cons_other isKey, keyFields_cons_other isKey, ih]
    | true =>
      cases delimited : field.payload.delimited? with
      | none => simp [select_cons_undelimited isKey delimited]
      | some bytes =>
        simp [select_cons_delimited isKey delimited, keyFields_cons_delimited isKey delimited, ih,
          List.getLast?_cons]

/-! ## The last key field in its place -/

/-- A field with a length holds the key that counts: it has the number of a key, and behind it
stand other fields only. -/
def IsLastKey (fields : List Wire.Field) (number : Nat) (payload : List UInt8) : Prop :=
  ∃ before behind, fields = before ++ ⟨number, .delimited payload⟩ :: behind ∧
    isKeyField number = true ∧ ∀ field ∈ behind, isKeyField field.number = false

theorem keyField?_eq_some_iff
    {field : Wire.Field} {number : Nat} {payload : List UInt8} :
    keyField? field = some (number, payload) ↔
      field = ⟨number, .delimited payload⟩ ∧ isKeyField number = true := by
  rcases field with ⟨fieldNumber, fieldPayload⟩
  rw [keyField?]
  split
  · next isKey =>
    cases fieldPayload with
    | delimited bytes =>
      simp only [Wire.Payload.delimited?, Option.map_some, Option.some.injEq, Prod.mk.injEq,
        Wire.Field.mk.injEq, Wire.Payload.delimited.injEq]
      constructor
      · rintro ⟨rfl, rfl⟩
        exact ⟨⟨rfl, rfl⟩, isKey⟩
      · exact And.left
    | number | eight | four => simp [Wire.Payload.delimited?]
  · next other =>
    apply iff_of_false (Option.some_ne_none _ ∘ Eq.symm)
    rintro ⟨⟨⟩, isKey⟩
    exact other isKey

theorem keyField?_eq_none_iff
    {field : Wire.Field}
    (hasLength : isKeyField field.number = true → field.payload.delimited?.isSome = true) :
    keyField? field = none ↔ isKeyField field.number = false := by
  rw [keyField?]
  split
  · next isKey =>
    rcases Option.isSome_iff_exists.mp (hasLength isKey) with ⟨bytes, delimited⟩
    simp [delimited, isKey]
  · next other => simp [Bool.eq_false_iff.mpr other]

theorem getLast?_keyFields_eq_some_iff
    {fields : List Wire.Field} (haveLengths : HaveLengths fields)
    {number : Nat} {payload : List UInt8} :
    (keyFields fields).getLast? = some (number, payload) ↔ IsLastKey fields number payload := by
  rw [keyFields, List.getLast?_filterMap, List.findSome?_eq_some_iff]
  constructor
  · rintro ⟨behind, field, before, same, isLast, others⟩
    rcases keyField?_eq_some_iff.mp isLast with ⟨rfl, isKey⟩
    have split : fields = before.reverse ++ ⟨number, .delimited payload⟩ :: behind.reverse := by
      rw [← List.reverse_reverse fields, same]
      simp
    refine ⟨before.reverse, behind.reverse, split, isKey, ?_⟩
    intro field member
    rw [← keyField?_eq_none_iff (haveLengths field (by simp [split, member]))]
    exact others field (List.mem_reverse.mp member)
  · rintro ⟨before, behind, rfl, isKey, others⟩
    refine ⟨behind.reverse, _, before.reverse, by simp, keyField?_eq_some_iff.mpr ⟨rfl, isKey⟩, ?_⟩
    intro field member
    rw [List.mem_reverse] at member
    rw [keyField?_eq_none_iff (haveLengths field (by simp [member]))]
    exact others field member

theorem getLast?_keyFields_eq_none_iff
    {fields : List Wire.Field} (haveLengths : HaveLengths fields) :
    (keyFields fields).getLast? = none ↔ ∀ field ∈ fields, isKeyField field.number = false := by
  rw [List.getLast?_eq_none_iff, keyFields, List.filterMap_eq_nil_iff]
  exact forall₂_congr fun field member => keyField?_eq_none_iff (haveLengths field member)

/-! ## Messages -/

/-- A message yields a key when it holds one. -/
theorem parseMessage_eq_ok_some_iff
    {bytes : List UInt8} {number : Nat} {payload : List UInt8} :
    parseMessage bytes = .ok (some (number, payload)) ↔ Holds bytes number payload := by
  rw [parseMessage, Holds]
  rcases Wire.walk bytes with ⟨fields, fault⟩
  cases fault with
  | some fault =>
    apply iff_of_false
    · intro impossible
      cases impossible
    · rintro ⟨_, ⟨⟩, -⟩
  | none =>
    show select none fields = _ ↔ _
    rw [select_eq_ok_iff, Option.or_none]
    constructor
    · rintro ⟨haveLengths, last⟩
      exact ⟨fields, rfl, haveLengths, last.symm⟩
    · rintro ⟨_, ⟨⟩, haveLengths, last⟩
      exact ⟨haveLengths, last.symm⟩

end LedgerQuery.Key
