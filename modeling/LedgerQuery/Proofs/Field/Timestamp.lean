import LedgerQuery.Field.Timestamp
import LedgerQuery.Proofs.Numeral.Run
import LedgerQuery.Proofs.Value.Parts

/-!
# Texts of timestamps

A text spells a timestamp when it is a run of at most ten digits, or such a run
and another one of at most nine with a point between them; one line feed may
stand at the end.  It denotes a decimal number of seconds, and the reader finds
this number of seconds in nanoseconds without any loss.  The main statement is
that reading and writing undo each other for the numbers that are written in
nineteen digits, and that texts are read alike exactly when they denote the same
number.
-/

namespace LedgerQuery.Field

open Numeral (isRun value decimal signedDecimal padded)
open Text (line)

/-! ## Spelling -/

/-- A text spells a timestamp with these digits before and behind the point. -/
inductive SpellsTimestamp : List Char → List Char → List Char → Prop where
  | whole {seconds : List Char} (run : isRun 1 10 seconds = true) :
      SpellsTimestamp seconds seconds []
  | fraction {seconds nanos : List Char} (run : isRun 1 10 seconds = true)
      (nanosRun : isRun 1 9 nanos = true) :
      SpellsTimestamp (['.'].intercalate [seconds, nanos]) seconds nanos

theorem splitOn_fraction
    {seconds nanos : List Char} (noPoint : '.' ∉ seconds) (noPoint' : '.' ∉ nanos) :
    (['.'].intercalate [seconds, nanos]).splitOn '.' = [seconds, nanos] := by
  apply List.splitOn_intercalate _ _ (List.cons_ne_nil _ _)
  rw [List.forall_mem_cons, List.forall_mem_singleton]
  exact ⟨noPoint, noPoint'⟩

/-- The reader takes a text apart exactly when it spells a timestamp. -/
theorem timestampDigits?_eq_some_iff {s : String} {seconds nanos : List Char} :
    timestampDigits? s = some (seconds, nanos) ↔
      SpellsTimestamp (line s.toList) seconds nanos := by
  constructor
  · intro read
    rw [timestampDigits?.eq_def] at read
    have joined : ['.'].intercalate ((line s.toList).splitOn '.') = line s.toList :=
      List.intercalate_splitOn '.'
    rw [← joined]
    split at read
    · next digits pieces =>
      rw [pieces, List.intercalate_singleton]
      split at read
      · next run =>
        cases read
        exact .whole run
      · cases read
    · next digits nanosDigits pieces =>
      rw [pieces]
      split at read
      · next runs =>
        rw [Bool.and_eq_true] at runs
        cases read
        exact .fraction runs.1 runs.2
      · cases read
    · cases read
  · intro spelled
    rw [timestampDigits?]
    generalize line s.toList = cs at spelled ⊢
    cases spelled with
    | whole run =>
      rw [List.splitOn_eq_singleton (Numeral.notMem_of_isRun run (by decide))]
      exact if_pos run
    | fraction run nanosRun =>
      rw [splitOn_fraction (Numeral.notMem_of_isRun run (by decide))
        (Numeral.notMem_of_isRun nanosRun (by decide))]
      dsimp only
      rw [run, nanosRun]
      rfl

section Spelled

variable {cs seconds nanos : List Char}

theorem SpellsTimestamp.length_le (spelled : SpellsTimestamp cs seconds nanos) :
    seconds.length ≤ 10 ∧ nanos.length ≤ 9 := by
  cases spelled with
  | whole run => exact ⟨Numeral.length_le_of_isRun run, Nat.zero_le 9⟩
  | fraction run nanosRun =>
    exact ⟨Numeral.length_le_of_isRun run, Numeral.length_le_of_isRun nanosRun⟩

/-- Filling up to nine digits multiplies by the powers of ten that are missing. -/
theorem value_nineDigits (nanos : List Char) :
    value (nineDigits nanos) = value nanos * 10 ^ (9 - nanos.length) :=
  Numeral.value_append_zeros nanos _

theorem value_nineDigits_lt (few : nanos.length ≤ 9) : value (nineDigits nanos) < 10 ^ 9 := by
  apply Numeral.value_lt
  rw [nineDigits, List.length_append, List.length_replicate]
  omega

end Spelled

/-! ## Decimal numbers -/

/-- The number of seconds that digits before and behind a point stand for. -/
def decimalNumber (seconds nanos : List Char) : ℚ :=
  value seconds + value nanos / 10 ^ nanos.length

/-- A text denotes a decimal number of seconds. -/
def Denotes (cs : List Char) (q : ℚ) : Prop :=
  ∃ seconds nanos, SpellsTimestamp cs seconds nanos ∧ q = decimalNumber seconds nanos

/-- The nanoseconds of digits before and behind the point. -/
def nanoseconds (seconds nanos : List Char) : Nat :=
  value seconds * 10 ^ 9 + value nanos * 10 ^ (9 - nanos.length)

theorem nanoseconds_lt {seconds nanos : List Char} (few : seconds.length ≤ 10)
    (fewNanos : nanos.length ≤ 9) :
    nanoseconds seconds nanos < 10 ^ 19 := by
  have secondsBound := Numeral.value_lt few
  have nanosBound := value_nineDigits_lt fewNanos
  rw [value_nineDigits] at nanosBound
  rw [nanoseconds]
  omega

/-- No digit behind the point is lost in nanoseconds. -/
theorem nanoseconds_eq_mul {seconds nanos : List Char} (few : nanos.length ≤ 9) :
    (nanoseconds seconds nanos : ℚ) = decimalNumber seconds nanos * 10 ^ 9 := by
  have places : (10 : ℚ) ^ 9 = 10 ^ (9 - nanos.length) * 10 ^ nanos.length := by
    rw [← pow_add, Nat.sub_add_cancel few]
  have behindPoint : (value nanos : ℚ) / 10 ^ nanos.length * 10 ^ 9 =
      value nanos * 10 ^ (9 - nanos.length) := by
    rw [places]
    field_simp
  rw [nanoseconds, decimalNumber, add_mul, behindPoint]
  norm_cast

/-! ## Reading -/

theorem timestampOfText?_eq_some_iff {s : String} {n : Nat} :
    timestampOfText? s = some n ↔
      ∃ seconds nanos, SpellsTimestamp (line s.toList) seconds nanos ∧
        n = nanoseconds seconds nanos := by
  rw [timestampOfText?, Option.map_eq_some_iff]
  constructor
  · rintro ⟨⟨seconds, nanos⟩, read, rfl⟩
    refine ⟨seconds, nanos, timestampDigits?_eq_some_iff.mp read, ?_⟩
    rw [value_nineDigits]
    rfl
  · rintro ⟨seconds, nanos, spelled, rfl⟩
    refine ⟨(seconds, nanos), timestampDigits?_eq_some_iff.mpr spelled, ?_⟩
    rw [value_nineDigits]
    rfl

theorem parseTimestamp_text (s : String) :
    parseTimestamp (.text s) = (timestampOfText? s).elim .null fun n => .int n := by
  have text : (Value.text s).asText?.bind timestampOfText? = timestampOfText? s := rfl
  rw [parseTimestamp, text]
  cases timestampOfText? s <;> rfl

theorem parseTimestamp_eq_int_iff {s : String} {m : Int} :
    parseTimestamp (.text s) = .int m ↔ ∃ n : Nat, timestampOfText? s = some n ∧ (n : Int) = m := by
  rw [parseTimestamp_text]
  cases timestampOfText? s <;> simp

theorem parseTimestamp_eq_null_iff {s : String} :
    parseTimestamp (.text s) = .null ↔ timestampOfText? s = none := by
  rw [parseTimestamp_text]
  cases timestampOfText? s <;> simp

/-- A timestamp is read as the nanoseconds of the number that it denotes. -/
theorem parseTimestamp_eq_int_iff_denotes {s : String} {n : Nat} :
    parseTimestamp (.text s) = .int n ↔ Denotes (line s.toList) (n / 10 ^ 9) := by
  have scale : (10 : ℚ) ^ 9 ≠ 0 := by positivity
  rw [parseTimestamp_eq_int_iff]
  constructor
  · rintro ⟨m, read, same⟩
    rcases timestampOfText?_eq_some_iff.mp read with ⟨seconds, nanos, spelled, rfl⟩
    refine ⟨seconds, nanos, spelled, ?_⟩
    rw [← Int.ofNat.inj same, nanoseconds_eq_mul spelled.length_le.2, mul_div_cancel_right₀ _ scale]
  · rintro ⟨seconds, nanos, spelled, same⟩
    have number : n = nanoseconds seconds nanos := by
      rw [div_eq_iff scale, ← nanoseconds_eq_mul spelled.length_le.2] at same
      exact_mod_cast same
    exact ⟨n, timestampOfText?_eq_some_iff.mpr ⟨seconds, nanos, spelled, number⟩, rfl⟩

/-- A decimal number of at most nine places is a whole number of nanoseconds. -/
theorem Denotes.exists_nanoseconds {cs : List Char} {q : ℚ} (denoted : Denotes cs q) :
    ∃ n : Nat, q = n / 10 ^ 9 := by
  rcases denoted with ⟨seconds, nanos, spelled, rfl⟩
  refine ⟨nanoseconds seconds nanos, ?_⟩
  rw [nanoseconds_eq_mul spelled.length_le.2, mul_div_cancel_right₀]
  positivity

/-! ## Writing -/

theorem line_secondsText (n : Int) :
    line (secondsText "." n).toList =
      ['.'].intercalate [signedDecimal (n / nanosPerSecond),
        padded 9 (n % nanosPerSecond).toNat] := by
  have written : (secondsText "." n).toList =
      (signedDecimal (n / nanosPerSecond) ++ '.' ::
          List.replicate (9 - (decimal (n % nanosPerSecond).toNat).length) '0') ++
        decimal (n % nanosPerSecond).toNat := by
    simp [secondsText, Numeral.writeInt, padded]
  rw [written, Numeral.line_append_decimal]
  simp [padded, List.intercalate]

/-- What is written is a timestamp again where nineteen digits are enough. -/
theorem timestampOfText?_secondsText (n : Int) :
    timestampOfText? (secondsText "." n) =
      if 0 ≤ n ∧ n < 10 ^ 19 then some n.toNat else none := by
  have nanosPositive : 0 < (nanosPerSecond : Int) := by decide
  have nanosRange : (n % nanosPerSecond).toNat < 10 ^ 9 := by
    rw [nanosPerSecond]
    omega
  have width := Numeral.length_padded (by decide) nanosRange
  have nanosRun : isRun 1 9 (padded 9 (n % nanosPerSecond).toNat) = true :=
    Numeral.isRun_of_isDigit (fun _ => Numeral.isDigit_of_mem_padded) (by omega) (by omega)
  have filled : nineDigits (padded 9 (n % nanosPerSecond).toNat) =
      padded 9 (n % nanosPerSecond).toNat := by
    rw [nineDigits, width]
    exact List.append_nil _
  rw [timestampOfText?, timestampDigits?, line_secondsText,
    splitOn_fraction (Numeral.notMem_signedDecimal (by decide) (by decide))
      (Numeral.notMem_of_isRun nanosRun (by decide))]
  dsimp only
  rw [nanosRun, Bool.and_true]
  by_cases inRange : 0 ≤ n ∧ n < 10 ^ 19
  · have run : isRun 1 10 (signedDecimal (n / nanosPerSecond)) = true := by
      rw [Numeral.isRun_signedDecimal_iff (by decide), nanosPerSecond]
      omega
    have nonneg : 0 ≤ n / nanosPerSecond := Int.ediv_nonneg inRange.1 (Int.le_of_lt nanosPositive)
    have secondsValue := Numeral.value_signedDecimal nonneg
    rw [if_pos run, if_pos inRange, Option.map_some, filled, Numeral.value_padded]
    apply congrArg some
    dsimp only
    rw [nanosPerSecond] at secondsValue ⊢
    omega
  · have noRun : ¬isRun 1 10 (signedDecimal (n / nanosPerSecond)) = true := by
      rw [Numeral.isRun_signedDecimal_iff (by decide), nanosPerSecond]
      omega
    rw [if_neg noRun, if_neg inRange]
    rfl

theorem parseTimestamp_secondsText (n : Int) :
    parseTimestamp (.text (secondsText "." n)) =
      if 0 ≤ n ∧ n < 10 ^ 19 then .int n else .null := by
  have read := timestampOfText?_secondsText n
  by_cases inRange : 0 ≤ n ∧ n < 10 ^ 19
  · rw [if_pos inRange] at read ⊢
    exact parseTimestamp_eq_int_iff.mpr ⟨_, read, Int.toNat_of_nonneg inRange.1⟩
  · rw [if_neg inRange] at read ⊢
    exact parseTimestamp_eq_null_iff.mpr read

theorem formatTimestamp_int_of_isShowable
    {n : Int} (showable : (Value.int (n / 10 ^ 9)).IsShowable) :
    formatTimestamp "." (.int n) = .ok (.text (secondsText "." n)) :=
  Value.ifWritable_of_isShowable showable _

/-- A written integer has no point, so it is as many seconds. -/
theorem timestampOfText?_writeInt (n : Int) :
    timestampOfText? (Numeral.writeInt n) =
      if 0 ≤ n ∧ n < 10 ^ 10 then some (n.toNat * nanosPerSecond) else none := by
  have noPoint : '.' ∉ signedDecimal n := Numeral.notMem_signedDecimal (by decide) (by decide)
  rw [timestampOfText?, timestampDigits?, Numeral.line_writeInt,
    List.splitOn_eq_singleton noPoint]
  dsimp only
  by_cases seconds : 0 ≤ n ∧ n < 10 ^ 10
  · have run : isRun 1 10 (signedDecimal n) = true :=
      (Numeral.isRun_signedDecimal_iff (by decide)).mpr seconds
    have noNanos : value (nineDigits []) = 0 := by decide
    have spelled : value (signedDecimal n) = n.toNat := by
      have number := Numeral.value_signedDecimal seconds.1
      omega
    rw [if_pos run, if_pos seconds, Option.map_some, noNanos, spelled, Nat.add_zero]
  · have noRun : ¬isRun 1 10 (signedDecimal n) = true :=
      mt (Numeral.isRun_signedDecimal_iff (by decide)).mp seconds
    rw [if_neg noRun, if_neg seconds]
    rfl

/-! ## Round trips -/

/--
Reading and writing undo each other.  A number of nanoseconds is written as a
text that is read as this number when it is not negative and has at most
nineteen digits, and otherwise as nothing.  It is written unless its seconds have
too many digits, which is to say thousands of them.  A text that spells a timestamp is
read as the exact number of nanoseconds that its digits stand for, which has at
most nineteen digits and is found again in its own text; any other text is read
as nothing.  Two texts are read as one timestamp exactly when they denote one
decimal number.
-/
theorem timestamp_roundTrip :
    (∀ n : Int,
        (n / 10 ^ 9).natAbs < Nat.pow 10 digitLimit ∧
            (∃ t, formatTimestamp "." (.int n) = .ok (.text t) ∧
              parseTimestamp (.text t) = if 0 ≤ n ∧ n < 10 ^ 19 then .int n else .null) ∨
          Nat.pow 10 digitLimit ≤ (n / 10 ^ 9).natAbs ∧
            formatTimestamp "." (.int n) = .error (.unreadable .writeLimit)) ∧
      (∀ s : String,
        (∃ (seconds nanos : List Char) (n : Int), SpellsTimestamp (line s.toList) seconds nanos ∧
            parseTimestamp (.text s) = .int n ∧
            n = value seconds * 10 ^ 9 + value nanos * 10 ^ (9 - nanos.length) ∧
            nanos.length ≤ 9 ∧ 0 ≤ n ∧ n ≤ 10 ^ 19 - 1 ∧
            ∃ t, formatTimestamp "." (parseTimestamp (.text s)) = .ok (.text t) ∧
              parseTimestamp (.text t) = parseTimestamp (.text s)) ∨
          (¬∃ seconds nanos, SpellsTimestamp (line s.toList) seconds nanos) ∧
            parseTimestamp (.text s) = .null) ∧
      ∀ s s' : String,
        (∃ n : Int, parseTimestamp (.text s) = .int n ∧ parseTimestamp (.text s') = .int n) ↔
          ∃ q : ℚ, Denotes (line s.toList) q ∧ Denotes (line s'.toList) q := by
  refine ⟨?_, ?_, ?_⟩
  · intro n
    by_cases showable : (Value.int (n / 10 ^ 9)).IsShowable
    · exact Or.inl ⟨Value.isShowable_int_iff.mp showable, secondsText "." n,
        formatTimestamp_int_of_isShowable showable, parseTimestamp_secondsText n⟩
    · exact Or.inr ⟨Nat.le_of_not_lt (mt Value.isShowable_int_iff.mpr showable),
        Value.ifWritable_of_not_isShowable showable _⟩
  · intro s
    by_cases spelled : ∃ seconds nanos, SpellsTimestamp (line s.toList) seconds nanos
    · rcases spelled with ⟨seconds, nanos, spelled⟩
      have few := spelled.length_le
      have bound := nanoseconds_lt few.1 few.2
      have read : parseTimestamp (.text s) = .int (nanoseconds seconds nanos) :=
        parseTimestamp_eq_int_iff.mpr
          ⟨_, timestampOfText?_eq_some_iff.mpr ⟨seconds, nanos, spelled, rfl⟩, rfl⟩
      refine Or.inl ⟨seconds, nanos, _, spelled, read, ?_, few.2, ?_, ?_, ?_⟩
      · rw [nanoseconds]
        push_cast
        rfl
      · exact Int.natCast_nonneg _
      · omega
      · rw [read]
        have showable : (Value.int ((nanoseconds seconds nanos : Int) / 10 ^ 9)).IsShowable :=
          Value.isShowable_int_of_lt 19 (by decide) (by norm_num; omega)
        refine ⟨_, formatTimestamp_int_of_isShowable showable, ?_⟩
        rw [parseTimestamp_secondsText, if_pos (by omega)]
    · refine Or.inr ⟨spelled, parseTimestamp_eq_null_iff.mpr ?_⟩
      rw [Option.eq_none_iff_forall_ne_some]
      intro n read
      rcases timestampOfText?_eq_some_iff.mp read with ⟨seconds, nanos, spells, -⟩
      exact spelled ⟨seconds, nanos, spells⟩
  · intro s s'
    constructor
    · rintro ⟨m, read, read'⟩
      rcases parseTimestamp_eq_int_iff.mp read with ⟨n, -, rfl⟩
      exact ⟨n / 10 ^ 9, parseTimestamp_eq_int_iff_denotes.mp read,
        parseTimestamp_eq_int_iff_denotes.mp read'⟩
    · rintro ⟨q, denoted, denoted'⟩
      rcases denoted.exists_nanoseconds with ⟨n, rfl⟩
      exact ⟨n, parseTimestamp_eq_int_iff_denotes.mpr denoted,
        parseTimestamp_eq_int_iff_denotes.mpr denoted'⟩

end LedgerQuery.Field
