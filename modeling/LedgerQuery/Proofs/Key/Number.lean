import LedgerQuery.Key.Basic
import LedgerQuery.Proofs.Key.Grammar

/-!
# Numbers in their place

A number that is read from a position on ends at another one, one to ten bytes
further and within the bytes.  All its bytes but the last have their top bit set,
and its value is that of their groups of seven bits.

Ten groups hold seventy bits.  The main statement says when the value is one of
sixty-four bits: the tenth byte, where there is one, may be zero or one only, and
the reader does not look at this.
-/

namespace LedgerQuery.Wire

/-! ## Slices -/

/-- The bytes from one position up to another. -/
def slice (bytes : List UInt8) (start stop : Nat) : List UInt8 :=
  (bytes.drop start).take (stop - start)

section Slice

variable {bytes : List UInt8} {start stop : Nat}

theorem length_slice (start : Nat) (inside : stop ≤ bytes.length) :
    (slice bytes start stop).length = stop - start := by
  rw [slice, List.length_take, List.length_drop]
  omega

theorem slice_append_drop (ordered : start ≤ stop) :
    slice bytes start stop ++ bytes.drop stop = bytes.drop start := by
  have behind : bytes.drop stop = (bytes.drop start).drop (stop - start) := by
    rw [List.drop_drop, Nat.add_sub_cancel' ordered]
  rw [slice, behind, List.take_append_drop]

/-- What stands at a position is a slice, and the rest follows it. -/
theorem slice_of_drop_eq_append
    {front rest : List UInt8} (same : bytes.drop start = front ++ rest) :
    slice bytes start (start + front.length) = front ∧
      bytes.drop (start + front.length) = rest := by
  constructor
  · rw [slice, same, Nat.add_sub_cancel_left, List.take_left]
  · rw [← List.drop_drop, same, List.drop_left]

theorem add_length_le_of_drop_eq_append
    {front rest : List UInt8} (same : bytes.drop start = front ++ rest) (someByte : front ≠ []) :
    start + front.length ≤ bytes.length := by
  have lengths := congrArg List.length same
  have positive := List.length_pos_iff.mpr someByte
  rw [List.length_drop, List.length_append] at lengths
  omega

/-- Slices side by side are one slice. -/
theorem slice_append_slice
    {middle : Nat} (first : start ≤ middle) (second : middle ≤ stop) :
    slice bytes start middle ++ slice bytes middle stop = slice bytes start stop := by
  have whole : stop - start = (middle - start) + (stop - middle) := by omega
  have behind : bytes.drop middle = (bytes.drop start).drop (middle - start) := by
    rw [List.drop_drop, Nat.add_sub_cancel' first]
  rw [slice, slice, slice, whole, List.take_add, behind]

/-- The parts of a slice are slices side by side. -/
theorem exists_slice_of_eq_append
    {front rest : List UInt8} (ordered : start ≤ stop) (inside : stop ≤ bytes.length)
    (same : slice bytes start stop = front ++ rest) :
    ∃ middle, start ≤ middle ∧ middle ≤ stop ∧ front = slice bytes start middle ∧
      rest = slice bytes middle stop := by
  have length := length_slice start inside
  rw [same, List.length_append] at length
  have bounded : start + front.length ≤ stop := by omega
  have whole : slice bytes start (start + front.length) ++ slice bytes (start + front.length) stop =
      front ++ rest := by
    rw [slice_append_slice (Nat.le_add_right start front.length) bounded, same]
  have cut : (slice bytes start (start + front.length)).length = front.length := by
    rw [length_slice start (Nat.le_trans bounded inside), Nat.add_sub_cancel_left]
  rcases List.append_inj whole cut with ⟨isFront, isRest⟩
  exact ⟨start + front.length, Nat.le_add_right _ _, bounded, isFront.symm, isRest.symm⟩

end Slice

/-! ## Groups of seven bits -/

/-- The number whose groups of seven bits are in these bytes, lowest first. -/
def groupValue : List UInt8 → Nat
  | [] => 0
  | byte :: bytes => byte.toNat % 128 + 128 * groupValue bytes

theorem groupValue_lt (bytes : List UInt8) : groupValue bytes < Nat.pow 128 bytes.length := by
  induction bytes with
  | nil => exact Nat.one_pos
  | cons byte bytes ih =>
    have power : Nat.pow 128 (byte :: bytes).length = Nat.pow 128 bytes.length * 128 := rfl
    have group := Nat.mod_lt byte.toNat (by decide : 0 < 128)
    rw [groupValue, power]
    omega

theorem groupValue_append (front rest : List UInt8) :
    groupValue (front ++ rest) =
      groupValue front + Nat.pow 128 front.length * groupValue rest := by
  induction front with
  | nil => simp [groupValue]
  | cons byte front ih =>
    have power : Nat.pow 128 (byte :: front).length = 128 * Nat.pow 128 front.length :=
      Nat.pow_succ'
    rw [List.cons_append, groupValue, groupValue, ih, power, Nat.mul_add, Nat.mul_assoc,
      Nat.add_assoc]

/-- Bytes that all have their top bit set but the last. -/
structure HasMarks (bytes : List UInt8) : Prop where
  someByte : bytes ≠ []
  marked : ∀ byte ∈ bytes.dropLast, 128 ≤ byte.toNat
  unmarked : ∀ byte ∈ bytes.getLast?, byte.toNat < 128

theorem hasMarks_singleton {byte : UInt8} : HasMarks [byte] ↔ byte.toNat < 128 := by
  constructor
  · intro marks
    exact marks.unmarked byte rfl
  · intro small
    refine ⟨List.cons_ne_nil _ _, by simp, ?_⟩
    rintro _ ⟨⟩
    exact small

theorem hasMarks_cons_cons {byte next : UInt8} {bytes : List UInt8} :
    HasMarks (byte :: next :: bytes) ↔ 128 ≤ byte.toNat ∧ HasMarks (next :: bytes) := by
  constructor
  · rintro ⟨-, marked, unmarked⟩
    rw [List.dropLast_cons_cons, List.forall_mem_cons] at marked
    exact ⟨marked.1, List.cons_ne_nil _ _, marked.2, by simpa using unmarked⟩
  · rintro ⟨first, -, marked, unmarked⟩
    refine ⟨List.cons_ne_nil _ _, ?_, by simpa using unmarked⟩
    rw [List.dropLast_cons_cons, List.forall_mem_cons]
    exact ⟨first, marked⟩

/-- Bytes spell a number when they have their marks, and it is the value of their groups. -/
theorem spellsNumber_iff {n : Nat} {bytes : List UInt8} :
    SpellsNumber n bytes ↔ HasMarks bytes ∧ n = groupValue bytes := by
  constructor
  · intro spelled
    induction spelled with
    | @last byte unmarked =>
      refine ⟨hasMarks_singleton.mpr unmarked, ?_⟩
      rw [groupValue, groupValue, Nat.mod_eq_of_lt unmarked, Nat.mul_zero, Nat.add_zero]
    | @more byte high bytes marked _ ih =>
      rcases ih with ⟨marks, rfl⟩
      rcases List.exists_cons_of_ne_nil marks.someByte with ⟨next, bytes, rfl⟩
      refine ⟨hasMarks_cons_cons.mpr ⟨Nat.le_of_not_lt marked, marks⟩, ?_⟩
      have bound := byte.toNat_lt
      rw [groupValue.eq_def (byte :: _)]
      dsimp only
      omega
  · rintro ⟨marks, rfl⟩
    induction bytes with
    | nil => exact absurd rfl marks.someByte
    | cons byte bytes ih =>
      cases bytes with
      | nil =>
        have small := hasMarks_singleton.mp marks
        have spelled := SpellsNumber.last small
        rwa [← Nat.mod_eq_of_lt small] at spelled
      | cons next bytes =>
        rcases hasMarks_cons_cons.mp marks with ⟨large, others⟩
        have spelled := SpellsNumber.more (Nat.not_lt.mpr large) (ih others)
        have bound := byte.toNat_lt
        have group : byte.toNat - 128 = byte.toNat % 128 := by omega
        rwa [group] at spelled

/-- The value of at most ten groups has sixty-four bits unless the tenth byte adds to them. -/
theorem groupValue_lt_iff
    {bytes : List UInt8} (marks : HasMarks bytes) (short : bytes.length ≤ 10) :
    groupValue bytes < 1 <<< 64 ↔ ∀ byte ∈ bytes[9]?, byte.toNat ≤ 1 := by
  rcases List.eq_nil_or_concat bytes with rfl | ⟨front, last, rfl⟩
  · exact absurd rfl marks.someByte
  rw [List.concat_eq_append] at marks short ⊢
  rw [List.length_append, List.length_singleton] at short
  by_cases tenth : front.length = 9
  · -- The first nine groups have sixty-three bits, and those of the tenth come on top.
    have small : last.toNat < 128 := marks.unmarked last (by simp)
    have low : groupValue front < 9223372036854775808 := by
      have bound := groupValue_lt front
      rwa [tenth] at bound
    have value : groupValue (front ++ [last]) =
        groupValue front + 9223372036854775808 * (last.toNat % 128) := by
      rw [groupValue_append, tenth]
      rfl
    have position : (front ++ [last])[9]? = some last := by
      rw [← tenth, List.getElem?_concat_length]
    simp only [position, value, Option.mem_some_iff, forall_eq']
    show _ < 18446744073709551616 ↔ _
    omega
  · have few : (front ++ [last]).length ≤ 9 := by
      rw [List.length_append, List.length_singleton]
      omega
    have bound : groupValue (front ++ [last]) < Nat.pow 128 9 :=
      Nat.lt_of_lt_of_le (groupValue_lt _) (Nat.pow_le_pow_right (by decide) few)
    apply iff_of_true (Nat.lt_trans bound (by decide))
    rw [List.getElem?_eq_none few]
    rintro _ ⟨⟩

/-! ## Numbers at positions -/

/-- A number stands between two positions: one to ten bytes, all but the last with the top bit
set. -/
structure IsNumberSpan (bytes : List UInt8) (start stop : Nat) : Prop where
  forward : start < stop
  short : stop ≤ start + 10
  inside : stop ≤ bytes.length
  marks : HasMarks (slice bytes start stop)

/-- A number stands between two positions and has this value. -/
def IsNumberAt (bytes : List UInt8) (start stop n : Nat) : Prop :=
  IsNumberSpan bytes start stop ∧ n = groupValue (slice bytes start stop)

/-- A number stands where it is spelled, in ten bytes at most. -/
theorem isNumberAt_iff {bytes : List UInt8} {start stop n : Nat} :
    IsNumberAt bytes start stop n ↔
      start ≤ stop ∧ stop ≤ bytes.length ∧ SpellsNumber n (slice bytes start stop) ∧
        (slice bytes start stop).length ≤ 10 := by
  rw [spellsNumber_iff]
  constructor
  · rintro ⟨⟨forward, short, inside, marks⟩, value⟩
    refine ⟨Nat.le_of_lt forward, inside, ⟨marks, value⟩, ?_⟩
    rw [length_slice start inside]
    omega
  · rintro ⟨ordered, inside, ⟨marks, value⟩, short⟩
    have positive := List.length_pos_iff.mpr marks.someByte
    rw [length_slice start inside] at positive short
    exact ⟨⟨by omega, by omega, inside, marks⟩, value⟩

/-- Reading from a position on yields the value of a number that stands there, and goes on behind
it. -/
theorem readNumber_drop_eq_ok_iff
    {bytes rest : List UInt8} {start n : Nat} :
    readNumber (bytes.drop start) = .ok (n, rest) ↔
      ∃ stop, IsNumberAt bytes start stop n ∧ rest = bytes.drop stop := by
  rw [readNumber, readNumberWithin_eq_ok_iff]
  constructor
  · rintro ⟨front, spelled, short, same⟩
    have someByte : front ≠ [] := (spellsNumber_iff.mp spelled).1.someByte
    rcases slice_of_drop_eq_append same with ⟨cut, behind⟩
    rw [← cut] at spelled short
    have inside := add_length_le_of_drop_eq_append same someByte
    exact ⟨_, isNumberAt_iff.mpr ⟨Nat.le_add_right _ _, inside, spelled, short⟩, behind.symm⟩
  · rintro ⟨stop, standing, rfl⟩
    rcases isNumberAt_iff.mp standing with ⟨ordered, -, spelled, short⟩
    exact ⟨_, spelled, short, (slice_append_drop ordered).symm⟩

theorem eq_truncatedNumber_of_readNumber
    {bytes : List UInt8} {fault : Fault} (failed : readNumber bytes = .error fault) :
    fault = .truncatedNumber := by
  rw [readNumber] at failed
  generalize 10 = most at failed
  induction most generalizing bytes with
  | zero =>
    cases failed
    rfl
  | succ most ih =>
    cases bytes with
    | nil =>
      cases failed
      rfl
    | cons byte bytes =>
      rw [readNumberWithin] at failed
      split at failed
      · cases failed
      · split at failed
        · next found =>
          cases failed
          exact ih found
        · cases failed

/-- A number is refused where none stands. -/
theorem readNumber_drop_eq_error_iff
    {bytes : List UInt8} {start : Nat} {fault : Fault} :
    readNumber (bytes.drop start) = .error fault ↔
      fault = .truncatedNumber ∧ ∀ stop, ¬IsNumberSpan bytes start stop := by
  constructor
  · intro failed
    refine ⟨eq_truncatedNumber_of_readNumber failed, ?_⟩
    intro stop span
    have read := readNumber_drop_eq_ok_iff.mpr ⟨stop, ⟨span, rfl⟩, rfl⟩
    cases failed.symm.trans read
  · rintro ⟨rfl, nowhere⟩
    cases outcome : readNumber (bytes.drop start) with
    | error fault => rw [eq_truncatedNumber_of_readNumber outcome]
    | ok read =>
      rcases readNumber_drop_eq_ok_iff.mp outcome with ⟨stop, standing, -⟩
      exact absurd standing.1 (nowhere stop)

/--
From every position on, either no number stands there and reading is refused, or
one does and is read: one to ten bytes within the bytes there are, all but the
last with the top bit set.  Its value always has seventy bits at most.  It has
sixty-four exactly when the tenth byte, if there is one, is zero or one.
-/
theorem readNumber_drop (bytes : List UInt8) (start : Nat) :
    (readNumber (bytes.drop start) = .error .truncatedNumber ∧
        ∀ stop, ¬IsNumberSpan bytes start stop) ∨
      ∃ stop, IsNumberSpan bytes start stop ∧
        readNumber (bytes.drop start) =
          .ok (groupValue (slice bytes start stop), bytes.drop stop) ∧
        groupValue (slice bytes start stop) < 1 <<< 70 ∧
        (groupValue (slice bytes start stop) < 1 <<< 64 ↔
          ∀ byte ∈ (slice bytes start stop)[9]?, byte.toNat ≤ 1) := by
  cases outcome : readNumber (bytes.drop start) with
  | error fault =>
    rcases readNumber_drop_eq_error_iff.mp outcome with ⟨rfl, nowhere⟩
    exact .inl ⟨rfl, nowhere⟩
  | ok read =>
    rcases readNumber_drop_eq_ok_iff.mp outcome with ⟨stop, ⟨span, value⟩, rest⟩
    have short : (slice bytes start stop).length ≤ 10 := by
      have bound := span.short
      rw [length_slice start span.inside]
      omega
    refine .inr ⟨stop, span, ?_, ?_, groupValue_lt_iff span.marks short⟩
    · rw [← value, ← rest]
    · exact Nat.lt_of_lt_of_le (groupValue_lt _) (Nat.pow_le_pow_right (by decide) short)

/-- A tag of ten bytes has a bit beyond the sixty-four, and the others make up the field number
zero.  Its field is passed over as one of another number, so the key in front of it is shown and not
the stored bytes. -/
theorem readNumber_drop_overflows :
    let stored : List UInt8 :=
      [0x12, 0x01, 0xaa, 0x82, 0x80, 0x80, 0x80, 0x80, 0x80, 0x80, 0x80, 0x80, 0x02, 0x01, 0xbb]
    readNumber (stored.drop 3) = .ok ((1 <<< 64) + 2, [0x01, 0xbb]) ∧ ¬(1 <<< 64) + 2 < 1 <<< 64 ∧
      Key.decode stored = some ⟨.ed25519, "aa"⟩ ∧ Key.decode stored ≠ some (Key.raw stored) := by
  intro stored
  have shown : Key.decode stored = some ⟨.ed25519, "aa"⟩ := by
    decide +kernel
  refine ⟨by decide, by decide, shown, ?_⟩
  rw [shown]
  decide +kernel

end LedgerQuery.Wire
