import LedgerQuery.Proofs.Key.Number

/-!
# Fields in their place

The grammar of messages says what spells a field.  Here fields stand between
positions of one message, as a walk finds them: the tag first, then the number or
the length if there is one, then the content, all within the bytes there are.

The main statement is that a walk is exact.  Its fields stand one behind the other
from the first byte on, without gap or overlap, and at most half as many as there
are bytes.  It reaches the last byte unless it fails, and it fails only where no
field stands, for a cause that the bytes show.
-/

namespace LedgerQuery.Wire

/-! ## Payloads and fields -/

/-- A payload stands between two positions, behind its tag.  Its content is the slice of the length
that its type has, or that the number in front of it declares. -/
inductive Payload.StandsAt (bytes : List UInt8) (start stop : Nat) : Payload → Prop
  | number {n : Nat} (standing : IsNumberAt bytes start stop n) :
    StandsAt bytes start stop (number n)
  | eight {content : List UInt8} (size : stop = start + 8) (inside : stop ≤ bytes.length)
    (isSlice : content = slice bytes start stop) : StandsAt bytes start stop (eight content)
  | delimited {content : List UInt8} {body : Nat}
    (declared : IsNumberAt bytes start body content.length) (size : stop = body + content.length)
    (inside : stop ≤ bytes.length) (isSlice : content = slice bytes body stop) :
    StandsAt bytes start stop (delimited content)
  | four {content : List UInt8} (size : stop = start + 4) (inside : stop ≤ bytes.length)
    (isSlice : content = slice bytes start stop) : StandsAt bytes start stop (four content)

/-- A field stands between two positions: its tag, and its payload behind it. -/
structure Field.StandsAt (bytes : List UInt8) (start stop : Nat) (field : Field) : Prop where
  numbered : field.number ≠ 0
  tagged : ∃ body, IsNumberAt bytes start body (8 * field.number + field.payload.wireType) ∧
    field.payload.StandsAt bytes body stop

/-- Fields stand one behind the other from one position to another: each begins where the one in
front of it ends. -/
inductive StandInRow (bytes : List UInt8) : Nat → Nat → List Field → Prop
  | nil {position : Nat} : StandInRow bytes position position []
  | cons {start middle stop : Nat} {field : Field} {fields : List Field}
    (first : field.StandsAt bytes start middle) (others : StandInRow bytes middle stop fields) :
    StandInRow bytes start stop (field :: fields)

section Places

variable {bytes : List UInt8} {start stop : Nat}

/-- A payload stands where it is spelled. -/
theorem Payload.standsAt_iff {payload : Payload} :
    payload.StandsAt bytes start stop ↔
      start ≤ stop ∧ stop ≤ bytes.length ∧ payload.Spells (slice bytes start stop) := by
  constructor
  · intro standing
    cases standing with
    | number standing =>
      rcases isNumberAt_iff.mp standing with ⟨ordered, inside, spelled, short⟩
      exact ⟨ordered, inside, .number spelled short⟩
    | eight size inside isSlice =>
      have length := length_slice start inside
      rw [← isSlice] at length ⊢
      exact ⟨by omega, inside, .eight (by omega)⟩
    | delimited declared size inside isSlice =>
      rcases isNumberAt_iff.mp declared with ⟨ordered, -, spelled, short⟩
      have behind : start ≤ stop := by omega
      rw [← slice_append_slice ordered (by omega), ← isSlice]
      exact ⟨behind, inside, .delimited spelled short⟩
    | four size inside isSlice =>
      have length := length_slice start inside
      rw [← isSlice] at length ⊢
      exact ⟨by omega, inside, .four (by omega)⟩
  · rintro ⟨ordered, inside, spelled⟩
    have length := length_slice start inside
    generalize isSlice : slice bytes start stop = run at spelled length
    cases spelled with
    | number spelled short =>
      rw [← isSlice] at spelled short
      exact .number (isNumberAt_iff.mpr ⟨ordered, inside, spelled, short⟩)
    | eight size => exact .eight (by omega) inside isSlice.symm
    | @delimited count content spelled short =>
      rcases exists_slice_of_eq_append ordered inside isSlice with
        ⟨body, first, second, rfl, rfl⟩
      have declared := isNumberAt_iff.mpr ⟨first, Nat.le_trans second inside, spelled, short⟩
      refine .delimited declared ?_ inside rfl
      rw [length_slice _ inside]
      omega
    | four size => exact .four (by omega) inside isSlice.symm

/-- A field stands where it is spelled. -/
theorem Field.standsAt_iff {field : Field} :
    field.StandsAt bytes start stop ↔
      start ≤ stop ∧ stop ≤ bytes.length ∧ field.Spells (slice bytes start stop) := by
  constructor
  · rintro ⟨numbered, body, tag, payload⟩
    rcases isNumberAt_iff.mp tag with ⟨first, -, spelled, short⟩
    rcases Payload.standsAt_iff.mp payload with ⟨second, inside, spelledPayload⟩
    rw [← slice_append_slice first second]
    exact ⟨Nat.le_trans first second, inside, .intro numbered spelled short spelledPayload⟩
  · rintro ⟨ordered, inside, spelled⟩
    generalize isSlice : slice bytes start stop = run at spelled
    rcases spelled with ⟨numbered, spelled, short, spelledPayload⟩
    rcases exists_slice_of_eq_append ordered inside isSlice with ⟨body, first, second, rfl, rfl⟩
    exact ⟨numbered, body,
      isNumberAt_iff.mpr ⟨first, Nat.le_trans second inside, spelled, short⟩,
      Payload.standsAt_iff.mpr ⟨second, inside, spelledPayload⟩⟩

/-- Fields stand in a row where they are spelled. -/
theorem standInRow_of_spells
    {fields : List Field} (ordered : start ≤ stop) (inside : stop ≤ bytes.length)
    (spelled : Spells fields (slice bytes start stop)) :
    StandInRow bytes start stop fields := by
  generalize isSlice : slice bytes start stop = run at spelled
  induction spelled generalizing start with
  | nil =>
    have length := length_slice start inside
    rw [isSlice, List.length_nil] at length
    obtain rfl : start = stop := by omega
    exact .nil
  | cons first _ ih =>
    rcases exists_slice_of_eq_append ordered inside isSlice with ⟨middle, front, behind, rfl, rfl⟩
    have standing := Field.standsAt_iff.mpr ⟨front, Nat.le_trans behind inside, first⟩
    exact .cons standing (ih behind rfl)

/-- A payload takes a byte at least. -/
theorem Payload.StandsAt.lt
    {payload : Payload} (standing : payload.StandsAt bytes start stop) :
    start < stop := by
  cases standing with
  | number standing => exact standing.1.forward
  | eight size | four size => omega
  | delimited declared size =>
    have forward := declared.1.forward
    omega

/-- A field takes two bytes at least. -/
theorem Field.StandsAt.add_two_le
    {field : Field} (standing : field.StandsAt bytes start stop) :
    start + 2 ≤ stop := by
  rcases standing.tagged with ⟨body, tag, payload⟩
  have first := tag.1.forward
  have second := payload.lt
  omega

theorem StandInRow.length_le
    {fields : List Field} (standing : StandInRow bytes start stop fields) :
    start + 2 * fields.length ≤ stop := by
  induction standing with
  | nil => exact Nat.le_refl _
  | cons first _ ih =>
    have step := first.add_two_le
    rw [List.length_cons]
    omega

end Places

/-! ## Faults -/

/-- Why no field is read from a position on. -/
inductive RefusedAt (bytes : List UInt8) (start : Nat) : Fault → Prop
  /-- No tag stands there. -/
  | tag (nowhere : ∀ stop, ¬IsNumberSpan bytes start stop) : RefusedAt bytes start .truncatedNumber
  /-- The tag has the field number zero. -/
  | zeroField {body tag : Nat} (standing : IsNumberAt bytes start body tag) (zero : tag / 8 = 0) :
    RefusedAt bytes start .zeroField
  /-- The tag has none of the four types. -/
  | unsupportedType {body tag : Nat} (standing : IsNumberAt bytes start body tag)
    (other : tag % 8 ≠ 0 ∧ tag % 8 ≠ 1 ∧ tag % 8 ≠ 2 ∧ tag % 8 ≠ 5) :
    RefusedAt bytes start (.unsupportedType (tag % 8))
  /-- No number or length stands behind the tag. -/
  | number {body tag : Nat} (standing : IsNumberAt bytes start body tag)
    (type : tag % 8 = 0 ∨ tag % 8 = 2) (nowhere : ∀ stop, ¬IsNumberSpan bytes body stop) :
    RefusedAt bytes start .truncatedNumber
  /-- Fewer bytes are left than the type has. -/
  | fixed {body tag size : Nat} (standing : IsNumberAt bytes start body tag)
    (type : tag % 8 = 1 ∧ size = 8 ∨ tag % 8 = 5 ∧ size = 4)
    (short : bytes.length < body + size) : RefusedAt bytes start .truncatedField
  /-- Fewer bytes are left than the length declares. -/
  | delimited {body content tag size : Nat} (standing : IsNumberAt bytes start body tag)
    (type : tag % 8 = 2) (declared : IsNumberAt bytes body content size)
    (short : bytes.length < content + size) : RefusedAt bytes start .truncatedField

section Faults

variable {bytes : List UInt8} {start : Nat} {fault : Fault}

theorem short_of_takeBytes
    {count : Nat} (failed : takeBytes count (bytes.drop start) = .error fault) :
    fault = .truncatedField ∧ bytes.length < start + count := by
  rw [takeBytes, List.length_drop] at failed
  split at failed
  · cases failed
  · cases failed
    exact ⟨rfl, by omega⟩

/-- What is refused behind a tag shows why. -/
theorem refusedAt_of_readPayload
    {body tag : Nat} (standing : IsNumberAt bytes start body tag)
    (failed : readPayload (tag % 8) (bytes.drop body) = .error fault) :
    RefusedAt bytes start fault := by
  unfold readPayload at failed
  split at failed
  · next type =>
    rw [map_eq_error] at failed
    rcases readNumber_drop_eq_error_iff.mp failed with ⟨rfl, nowhere⟩
    exact .number standing (.inl type) nowhere
  · next type =>
    rw [map_eq_error] at failed
    rcases short_of_takeBytes failed with ⟨rfl, short⟩
    exact .fixed standing (.inl ⟨type, rfl⟩) short
  · next type =>
    split at failed
    · next refused =>
      cases failed
      rcases readNumber_drop_eq_error_iff.mp refused with ⟨rfl, nowhere⟩
      exact .number standing (.inr type) nowhere
    · next read =>
      rcases readNumber_drop_eq_ok_iff.mp read with ⟨content, declared, rfl⟩
      rw [map_eq_error] at failed
      rcases short_of_takeBytes failed with ⟨rfl, short⟩
      exact .delimited standing type declared short
  · next type =>
    rw [map_eq_error] at failed
    rcases short_of_takeBytes failed with ⟨rfl, short⟩
    exact .fixed standing (.inr ⟨type, rfl⟩) short
  · next notZero notOne notTwo notFive =>
    cases failed
    exact .unsupportedType standing ⟨notZero, notOne, notTwo, notFive⟩

/-- What is refused shows why. -/
theorem refusedAt_of_readField (failed : readField (bytes.drop start) = .error fault) :
    RefusedAt bytes start fault := by
  rw [readField] at failed
  split at failed
  · next refused =>
    cases failed
    rcases readNumber_drop_eq_error_iff.mp refused with ⟨rfl, nowhere⟩
    exact .tag nowhere
  · next tag rest read =>
    rcases readNumber_drop_eq_ok_iff.mp read with ⟨body, standing, rfl⟩
    split at failed
    · next zero =>
      cases failed
      exact .zeroField standing zero
    · rw [map_eq_error] at failed
      exact refusedAt_of_readPayload standing failed

/-- No field stands where one is refused. -/
theorem not_standsAt_of_readField
    (failed : readField (bytes.drop start) = .error fault) (stop : Nat) (field : Field) :
    ¬field.StandsAt bytes start stop := by
  intro standing
  rcases Field.standsAt_iff.mp standing with ⟨ordered, -, spelled⟩
  have read : readField (bytes.drop start) = .ok (field, bytes.drop stop) :=
    readField_eq_ok_iff.mpr ⟨_, spelled, (slice_append_drop ordered).symm⟩
  cases failed.symm.trans read

end Faults

/-! ## Walks -/

/--
A walk over any bytes ends with at most half as many fields as there are bytes.
They stand in a row from the first byte up to the position where the walk stops,
each number, length and content within the bytes.  This is the end of the bytes
exactly when the walk has no fault.  Otherwise no field stands at this position,
and the bytes from there on show the fault.
-/
theorem walk_inRow (bytes : List UInt8) :
    2 * (walk bytes).fields.length ≤ bytes.length ∧
      ∃ stop, StandInRow bytes 0 stop (walk bytes).fields ∧ stop ≤ bytes.length ∧
        ((walk bytes).fault = none ↔ stop = bytes.length) ∧
        ∀ fault, (walk bytes).fault = some fault →
          RefusedAt bytes stop fault ∧ ∀ next (field : Field), ¬field.StandsAt bytes stop next := by
  rcases exists_spells_walk bytes with ⟨front, rest, spelled, same, ended⟩
  have fromFirst : bytes.drop 0 = front ++ rest := same
  rcases slice_of_drop_eq_append fromFirst with ⟨cut, behind⟩
  rw [Nat.zero_add] at cut behind
  have inside : front.length ≤ bytes.length := by
    rw [same, List.length_append]
    exact Nat.le_add_right _ _
  have row : StandInRow bytes 0 front.length (walk bytes).fields :=
    standInRow_of_spells (Nat.zero_le _) inside (cut.symm ▸ spelled)
  have bound := row.length_le
  refine ⟨by omega, front.length, row, inside, ?_, ?_⟩
  · constructor
    · intro noFault
      rw [noFault] at ended
      rw [same, eq_nil_of_walk ended, List.append_nil]
    · intro atEnd
      cases fault : (walk bytes).fault with
      | none => rfl
      | some fault' =>
        rw [fault] at ended
        rw [atEnd, List.drop_length] at behind
        exact absurd behind.symm (readField_of_walk ended).1
  · intro fault failed
    rw [failed, ← behind] at ended
    have refused := (readField_of_walk ended).2
    exact ⟨refusedAt_of_readField refused, not_standsAt_of_readField refused⟩

end LedgerQuery.Wire
