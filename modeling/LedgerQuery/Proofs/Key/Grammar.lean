import LedgerQuery.Proofs.Key.Wire
import LedgerQuery.Proofs.Outcome

/-!
# The grammar of messages

A message spells its fields one after the other: each is a tag and a payload, and
the numbers in them may take more bytes than they need, but ten at most.  The
main statement is that the reader accepts this grammar and nothing else: a walk
reaches the end with some fields exactly when the bytes spell these fields.  A
walk that fails has still read what is spelled in front of the fault.
-/

namespace LedgerQuery.Wire

/-! ## Numbers -/

/-- Groups of seven bits that spell a number, lowest first; all bytes but the last have their top
bit set. -/
inductive SpellsNumber : Nat → List UInt8 → Prop
  | last {byte : UInt8} (unmarked : byte.toNat < 128) : SpellsNumber byte.toNat [byte]
  | more {byte : UInt8} {high : Nat} {bytes : List UInt8} (marked : ¬byte.toNat < 128)
    (others : SpellsNumber high bytes) :
    SpellsNumber (byte.toNat - 128 + 128 * high) (byte :: bytes)

theorem readNumberWithin_of_spellsNumber
    {n : Nat} {front : List UInt8} (spelled : SpellsNumber n front)
    {most : Nat} (short : front.length ≤ most) (rest : List UInt8) :
    readNumberWithin most (front ++ rest) = .ok (n, rest) := by
  induction spelled generalizing most with
  | last unmarked =>
    cases most with
    | zero => cases short
    | succ most => rw [List.singleton_append, readNumberWithin, if_pos unmarked]
  | more marked _ ih =>
    cases most with
    | zero => cases short
    | succ most =>
      rw [List.cons_append, readNumberWithin, if_neg marked, ih (Nat.le_of_succ_le_succ short)]

theorem readNumberWithin_eq_ok_iff
    {most n : Nat} {bytes rest : List UInt8} :
    readNumberWithin most bytes = .ok (n, rest) ↔
      ∃ front, SpellsNumber n front ∧ front.length ≤ most ∧ bytes = front ++ rest := by
  constructor
  · intro read
    induction most generalizing n bytes with
    | zero => cases read
    | succ most ih =>
      cases bytes with
      | nil => cases read
      | cons byte bytes =>
        rw [readNumberWithin] at read
        split at read
        · next unmarked =>
          cases read
          exact ⟨[byte], .last unmarked, Nat.succ_le_succ (Nat.zero_le _), rfl⟩
        · next marked =>
          split at read
          · cases read
          · next high _ found =>
            cases read
            rcases ih found with ⟨front, spelled, short, rfl⟩
            exact ⟨byte :: front, .more marked spelled, Nat.succ_le_succ short, rfl⟩
  · rintro ⟨front, spelled, short, rfl⟩
    exact readNumberWithin_of_spellsNumber spelled short rest

/-- What is written for a number spells it. -/
theorem spellsNumber_writeNumber (n : Nat) : SpellsNumber n (writeNumber n) := by
  fun_induction writeNumber n with
  | case1 n small =>
    have byte := toNat_ofNat_of_lt (Nat.lt_trans small (by decide))
    have spelled : SpellsNumber (UInt8.ofNat n).toNat [UInt8.ofNat n] := .last (byte.symm ▸ small)
    rwa [byte] at spelled
  | case2 n large ih =>
    have byte : (UInt8.ofNat (n % 128 + 128)).toNat = n % 128 + 128 :=
      toNat_ofNat_of_lt (by omega)
    have marked : ¬(UInt8.ofNat (n % 128 + 128)).toNat < 128 := by
      rw [byte]
      omega
    have spelled := SpellsNumber.more marked ih
    have whole : n % 128 + 128 - 128 + 128 * (n / 128) = n := by omega
    rwa [byte, whole] at spelled

/-- No bytes that spell a number are fewer than those written for it. -/
theorem length_writeNumber_le
    {n : Nat} {bytes : List UInt8} (spelled : SpellsNumber n bytes) :
    (writeNumber n).length ≤ bytes.length := by
  induction spelled with
  | last unmarked =>
    rw [writeNumber, if_pos unmarked]
    exact Nat.le_refl _
  | @more byte high bytes marked _ ih =>
    rw [writeNumber]
    split
    · exact Nat.succ_le_succ (Nat.zero_le _)
    · have rest : (byte.toNat - 128 + 128 * high) / 128 = high := by
        have bound := byte.toNat_lt
        omega
      rw [rest]
      exact Nat.succ_le_succ ih

/-! ## Fields -/

theorem takeBytes_eq_ok_iff
    {count : Nat} {bytes taken rest : List UInt8} :
    takeBytes count bytes = .ok (taken, rest) ↔ taken.length = count ∧ bytes = taken ++ rest := by
  constructor
  · intro read
    rw [takeBytes] at read
    split at read
    · next enough =>
      cases read
      exact ⟨List.length_take_of_le enough, (List.take_append_drop count bytes).symm⟩
    · cases read
  · rintro ⟨rfl, rfl⟩
    exact takeBytes_append taken rest

/-- Bytes that spell a payload behind its tag. -/
inductive Payload.Spells : Payload → List UInt8 → Prop
  | number {n : Nat} {bytes : List UInt8} (spelled : SpellsNumber n bytes)
    (short : bytes.length ≤ 10) : Spells (number n) bytes
  | eight {bytes : List UInt8} (size : bytes.length = 8) : Spells (eight bytes) bytes
  | delimited {count bytes : List UInt8} (spelled : SpellsNumber bytes.length count)
    (short : count.length ≤ 10) : Spells (delimited bytes) (count ++ bytes)
  | four {bytes : List UInt8} (size : bytes.length = 4) : Spells (four bytes) bytes

theorem readPayload_eq_ok_iff
    {wireType : Nat} {bytes rest : List UInt8} {payload : Payload} :
    readPayload wireType bytes = .ok (payload, rest) ↔
      payload.wireType = wireType ∧ ∃ front, payload.Spells front ∧ bytes = front ++ rest := by
  constructor
  · intro read
    unfold readPayload at read
    split at read
    · rcases map_eq_ok.mp read with ⟨⟨n, _⟩, found, ⟨⟩⟩
      rcases readNumberWithin_eq_ok_iff.mp found with ⟨front, spelled, short, rfl⟩
      exact ⟨rfl, front, .number spelled short, rfl⟩
    · rcases map_eq_ok.mp read with ⟨⟨taken, _⟩, found, ⟨⟩⟩
      rcases takeBytes_eq_ok_iff.mp found with ⟨size, rfl⟩
      exact ⟨rfl, taken, .eight size, rfl⟩
    · split at read
      · cases read
      · next number =>
        rcases map_eq_ok.mp read with ⟨⟨taken, _⟩, found, ⟨⟩⟩
        rcases readNumberWithin_eq_ok_iff.mp number with ⟨count, spelled, short, rfl⟩
        rcases takeBytes_eq_ok_iff.mp found with ⟨rfl, rfl⟩
        exact ⟨rfl, count ++ taken, .delimited spelled short, (List.append_assoc ..).symm⟩
    · rcases map_eq_ok.mp read with ⟨⟨taken, _⟩, found, ⟨⟩⟩
      rcases takeBytes_eq_ok_iff.mp found with ⟨size, rfl⟩
      exact ⟨rfl, taken, .four size, rfl⟩
    · cases read
  · rintro ⟨rfl, front, spelled, rfl⟩
    cases spelled with
    | number spelled short =>
      have read := readNumberWithin_of_spellsNumber spelled short rest
      show (readNumber (front ++ rest)).map _ = _
      rw [readNumber, read]
      rfl
    | eight size =>
      show (takeBytes 8 (front ++ rest)).map _ = _
      rw [← size, takeBytes_append]
      rfl
    | @delimited count bytes spelled short =>
      have read := readNumberWithin_of_spellsNumber spelled short (bytes ++ rest)
      rw [Payload.wireType, List.append_assoc, readPayload, readNumber, read]
      dsimp only
      rw [takeBytes_append]
      rfl
    | four size =>
      show (takeBytes 4 (front ++ rest)).map _ = _
      rw [← size, takeBytes_append]
      rfl

/-- Bytes that spell a field: its tag and its payload. -/
inductive Field.Spells (field : Field) : List UInt8 → Prop
  | intro {tag body : List UInt8} (numbered : field.number ≠ 0)
    (spelled : SpellsNumber (8 * field.number + field.payload.wireType) tag)
    (short : tag.length ≤ 10) (payload : field.payload.Spells body) : Spells field (tag ++ body)

theorem readField_eq_ok_iff {bytes rest : List UInt8} {field : Field} :
    readField bytes = .ok (field, rest) ↔ ∃ front, field.Spells front ∧ bytes = front ++ rest := by
  constructor
  · intro read
    rw [readField] at read
    split at read
    · cases read
    · next tag after number =>
      split at read
      · cases read
      · next numbered =>
        rcases map_eq_ok.mp read with ⟨⟨payload, _⟩, found, ⟨⟩⟩
        rcases readNumberWithin_eq_ok_iff.mp number with ⟨front, spelled, short, rfl⟩
        rcases readPayload_eq_ok_iff.mp found with ⟨type, body, spelledBody, rfl⟩
        have whole : 8 * (tag / 8) + payload.wireType = tag := by omega
        rw [← whole] at spelled
        exact ⟨front ++ body, .intro numbered spelled short spelledBody,
          (List.append_assoc ..).symm⟩
  · rintro ⟨front, ⟨numbered, spelled, short, payload⟩, rfl⟩
    have type := field.payload.wireType_lt
    have number : (8 * field.number + field.payload.wireType) / 8 = field.number := by omega
    have wireType : (8 * field.number + field.payload.wireType) % 8 = field.payload.wireType := by
      omega
    rw [List.append_assoc, readField, readNumber, readNumberWithin_of_spellsNumber spelled short]
    dsimp only
    rw [number, wireType, if_neg numbered, readPayload_eq_ok_iff.mpr ⟨rfl, _, payload, rfl⟩]
    rfl

/-- The payload of a field with a length is a slice of what spells the field. -/
theorem Field.Spells.isInfix
    {number : Nat} {payload bytes : List UInt8}
    (spelled : Field.Spells ⟨number, .delimited payload⟩ bytes) :
    payload <:+: bytes := by
  rcases spelled with ⟨-, -, -, body⟩
  cases body with
  | delimited => exact ((List.suffix_append _ _).trans (List.suffix_append _ _)).isInfix

/-! ## Messages -/

/-- Bytes that spell fields one after the other. -/
inductive Spells : List Field → List UInt8 → Prop
  | nil : Spells [] []
  | cons {field : Field} {fields : List Field} {front rest : List UInt8}
    (first : field.Spells front) (others : Spells fields rest) :
    Spells (field :: fields) (front ++ rest)

theorem spells_append_iff {fields more : List Field} {bytes : List UInt8} :
    Spells (fields ++ more) bytes ↔
      ∃ front rest, Spells fields front ∧ Spells more rest ∧ bytes = front ++ rest := by
  induction fields generalizing bytes with
  | nil =>
    constructor
    · intro spelled
      exact ⟨[], bytes, .nil, spelled, rfl⟩
    · rintro ⟨_, rest, ⟨⟩, spelled, rfl⟩
      exact spelled
  | cons field fields ih =>
    constructor
    · rintro (_ | ⟨first, others⟩)
      rcases ih.mp others with ⟨front, rest, spelled, spelledMore, rfl⟩
      exact ⟨_, rest, .cons first spelled, spelledMore, (List.append_assoc ..).symm⟩
    · rintro ⟨_, rest, _ | ⟨first, others⟩, spelledMore, rfl⟩
      rw [List.append_assoc]
      exact .cons first (ih.mpr ⟨_, rest, others, spelledMore, rfl⟩)

/-- What spells a field stands behind what spells the fields in front of it. -/
theorem Spells.exists_split
    {before behind : List Field} {field : Field} {bytes : List UInt8}
    (spelled : Spells (before ++ field :: behind) bytes) :
    ∃ front middle rest, Spells before front ∧ field.Spells middle ∧
      bytes = front ++ (middle ++ rest) := by
  rcases spells_append_iff.mp spelled with ⟨front, _, spelledBefore, _ | ⟨first, _⟩, rfl⟩
  exact ⟨front, _, _, spelledBefore, first, rfl⟩

/-- A walk reads what is spelled; behind it stands no further field. -/
theorem exists_spells_walk (bytes : List UInt8) :
    ∃ front rest, Spells (walk bytes).fields front ∧ bytes = front ++ rest ∧
      walk rest = ⟨[], (walk bytes).fault⟩ := by
  fun_induction walk bytes with
  | case1 => exact ⟨[], [], .nil, rfl, by rw [walk]⟩
  | case2 byte bytes fault failed =>
    refine ⟨[], byte :: bytes, .nil, rfl, ?_⟩
    rw [walk]
    split
    · next found => rw [Except.error.inj (failed.symm.trans found)]
    · next found => cases failed.symm.trans found
  | case3 byte bytes field after read _ ih =>
    rcases readField_eq_ok_iff.mp read with ⟨front, first, same⟩
    rcases ih with ⟨middle, rest, others, rfl, ended⟩
    refine ⟨front ++ middle, rest, .cons first others, ?_, ended⟩
    rw [same, List.append_assoc]

/-- A walk without fields or fault has nothing to read. -/
theorem eq_nil_of_walk {bytes : List UInt8} (ended : walk bytes = ⟨[], none⟩) : bytes = [] := by
  cases bytes with
  | nil => rfl
  | cons byte bytes =>
    rw [walk] at ended
    split at ended <;> cases ended

/-- A walk that fails before it finds a field fails to read the first one. -/
theorem readField_of_walk
    {bytes : List UInt8} {fault : Fault} (failed : walk bytes = ⟨[], some fault⟩) :
    bytes ≠ [] ∧ readField bytes = .error fault := by
  cases bytes with
  | nil =>
    rw [walk] at failed
    cases failed
  | cons byte bytes =>
    rw [walk] at failed
    split at failed
    · next found =>
      cases failed
      exact ⟨List.cons_ne_nil _ _, found⟩
    · cases failed

/-- What a walk has read stands in the bytes, whether it fails behind it or not. -/
theorem exists_split_of_walk
    {before behind : List Field} {field : Field} {bytes : List UInt8}
    (walked : (walk bytes).fields = before ++ field :: behind) :
    ∃ front middle rest, Spells before front ∧ field.Spells middle ∧
      bytes = front ++ (middle ++ rest) := by
  rcases exists_spells_walk bytes with ⟨_, after, spelled, same, -⟩
  rw [walked] at spelled
  rcases spelled.exists_split with ⟨front, middle, rest, spelledBefore, first, rfl⟩
  refine ⟨front, middle, rest ++ after, spelledBefore, first, ?_⟩
  rw [same, List.append_assoc, List.append_assoc]

/-- A walk reaches the end with some fields exactly when the bytes spell these fields. -/
theorem walk_eq_iff {bytes : List UInt8} {fields : List Field} :
    walk bytes = ⟨fields, none⟩ ↔ Spells fields bytes := by
  constructor
  · intro walked
    rcases exists_spells_walk bytes with ⟨front, rest, spelled, same, ended⟩
    rw [walked] at spelled ended
    rw [eq_nil_of_walk ended, List.append_nil] at same
    exact same ▸ spelled
  · intro spelled
    induction spelled with
    | nil => rw [walk]
    | @cons field fields front rest first _ ih =>
      rw [walk_of_readField (readField_eq_ok_iff.mpr ⟨front, first, rfl⟩), ih]

end LedgerQuery.Wire
