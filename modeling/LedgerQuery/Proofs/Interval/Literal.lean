import LedgerQuery.Proofs.Interval
import LedgerQuery.Proofs.Numeral.Literal
import LedgerQuery.Proofs.Value.Parts

/-!
# Range literals

A reader of range literals of whole numbers, and what it makes of written
intervals.  A literal is the word for an empty range, or two brackets around two
ends with a comma in between.  An end is a whole number or missing, and two ends
that are there have to be in order.

An interval is denoted by its literal when the literal can be written and read,
and says of every whole number whether the interval contains it.  For bounds that
are missing, or whole numbers by their kind, in order, that is so exactly when
the bounds that are there are numbers of not too many digits: a truth value
counts as a number, but is written as a word.
-/

namespace LedgerQuery

/-! ## Reading -/

/-- What a range literal says. -/
inductive RangeReading where
  /-- There is nothing in the range. -/
  | empty
  /-- The range lies between two ends, each of which may be missing and may belong to it or not. -/
  | between (lower upper : Option Int) (lowerInclusive upperInclusive : Bool)
  deriving DecidableEq, Repr

namespace RangeReading

/-- The number lies in the range. -/
def Holds : RangeReading → Int → Prop
  | empty, _ => False
  | between lower upper lowerInclusive upperInclusive, x =>
    (∀ l ∈ lower, if lowerInclusive = true then l ≤ x else l < x) ∧
      ∀ u ∈ upper, if upperInclusive = true then x ≤ u else x < u

instance (reading : RangeReading) (x : Int) : Decidable (reading.Holds x) :=
  match reading with
  | empty => inferInstanceAs (Decidable False)
  | between lower upper lowerInclusive upperInclusive =>
    inferInstanceAs (Decidable ((∀ l ∈ lower, if lowerInclusive = true then l ≤ x else l < x) ∧
      ∀ u ∈ upper, if upperInclusive = true then x ≤ u else x < u))

/-- The number of a run of ASCII digits. -/
def readDigits? (cs : List Char) : Option Nat :=
  if cs ≠ [] ∧ cs.all Char.isDigit = true then some (Numeral.value cs) else none

/-- The number of a run of ASCII digits, with or without a sign in front. -/
def readInteger? (cs : List Char) : Option Int :=
  let (negative, digits) := Numeral.splitSign cs
  (readDigits? digits).map fun (n : Nat) => if negative then -(n : Int) else n

/-- An end of a range, which may be missing. -/
def readEnd? (cs : List Char) : Option (Option Int) :=
  if cs = [] then some none else (readInteger? cs).map some

/-- The ends of a range on both sides of a comma. -/
def readEnds? (cs : List Char) : Option (Option Int × Option Int) :=
  match cs.splitOn ',' with
  | [front, back] => do
    let lower ← readEnd? front
    let upper ← readEnd? back
    if ∀ l ∈ lower, ∀ u ∈ upper, l ≤ u then some (lower, upper) else none
  | _ => none

/-- Whether the lower end belongs to the range that a bracket opens. -/
def opens? : Char → Option Bool
  | '[' => some true
  | '(' => some false
  | _ => none

/-- Whether the upper end belongs to the range that a bracket closes. -/
def closes? : Char → Option Bool
  | ']' => some true
  | ')' => some false
  | _ => none

/-- Read a range literal. -/
def read? (s : String) : Option RangeReading :=
  if s = "empty" then some empty
  else do
    let lowerInclusive ← s.toList.head?.bind opens?
    let upperInclusive ← s.toList.getLast?.bind closes?
    let (lower, upper) ← readEnds? s.toList.tail.dropLast
    return between lower upper lowerInclusive upperInclusive

/-! ### Ends -/

theorem readDigits?_decimal (n : Nat) : readDigits? (Numeral.decimal n) = some n := by
  have digits : (Numeral.decimal n).all Char.isDigit = true :=
    List.all_eq_true.mpr fun _ => Nat.isDigit_of_mem_toDigits (by decide) (by decide)
  rw [readDigits?, if_pos ⟨Numeral.decimal_ne_nil n, digits⟩, Numeral.value_decimal]

theorem readInteger?_signedDecimal (n : Int) : readInteger? (Numeral.signedDecimal n) = some n := by
  rw [readInteger?, Numeral.splitSign_signedDecimal]
  dsimp only
  rw [readDigits?_decimal, Option.map_some, Numeral.signed_natAbs]

theorem signedDecimal_ne_nil (n : Int) : Numeral.signedDecimal n ≠ [] := by
  rw [Numeral.signedDecimal_eq]
  exact List.append_ne_nil_of_right_ne_nil _ (Numeral.decimal_ne_nil _)

/-- A written number is read as the end that it is. -/
theorem readEnd?_writeInt (n : Int) : readEnd? (Numeral.writeInt n).toList = some (some n) := by
  rw [Numeral.toList_writeInt, readEnd?, if_neg (signedDecimal_ne_nil n),
    readInteger?_signedDecimal, Option.map_some]

theorem readEnds?_append {front back : List Char} (noComma : ',' ∉ front) (noComma' : ',' ∉ back) :
    readEnds? (front ++ ',' :: back) =
      (readEnd? front).bind fun lower => (readEnd? back).bind fun upper =>
        if ∀ l ∈ lower, ∀ u ∈ upper, l ≤ u then some (lower, upper) else none := by
  have joined : front ++ ',' :: back = [','].intercalate [front, back] := by
    simp [List.intercalate]
  have pieces : (front ++ ',' :: back).splitOn ',' = [front, back] := by
    rw [joined]
    apply List.splitOn_intercalate _ _ (List.cons_ne_nil _ _)
    rw [List.forall_mem_cons, List.forall_mem_singleton]
    exact ⟨noComma, noComma'⟩
  rw [readEnds?, pieces]
  rfl

end RangeReading

open RangeReading (readEnd? readEnds? read?)

/-! ## Bounds -/

/-- A bound that is missing, or a number of not too many digits. -/
def Value.IsDecimal (v : Value) : Prop :=
  v = .null ∨ ∃ n : Int, v = .int n ∧ n.natAbs < Nat.pow 10 digitLimit

theorem Value.isDecimal_int_iff {n : Int} :
    (Value.int n).IsDecimal ↔ n.natAbs < Nat.pow 10 digitLimit := by
  simp only [IsDecimal, reduceCtorEq, int.injEq, exists_eq_left', false_or]

theorem Value.IsDecimal.isShowable {v : Value} (decimal : v.IsDecimal) : v.IsShowable := by
  rcases decimal with rfl | ⟨n, rfl, few⟩
  · exact isShowable_null
  · exact isShowable_int_iff.mpr few

namespace Interval

section Bound

variable {v : Value} {bound : Option Int}

/-- A bound that is a number is written as the number, and one that is a truth value as a word. -/
theorem boundText_cases (isBound : v.IsBound bound) :
    (v = .null ∧ bound = .none ∧ boundText v = "") ∨
      (∃ n, v = .int n ∧ bound = some n ∧ boundText v = Numeral.writeInt n) ∨
      ∃ b, v = .bool b ∧ boundText v = Value.boolWord b := by
  cases bound with
  | none =>
    cases isBound
    exact .inl ⟨rfl, rfl, rfl⟩
  | some n =>
    cases v with
    | int m =>
      cases isBound
      exact .inr (.inl ⟨n, rfl, rfl, rfl⟩)
    | bool b => exact .inr (.inr ⟨b, rfl, rfl⟩)
    | _ => cases isBound

theorem comma_notMem_boundText (isBound : v.IsBound bound) : ',' ∉ (boundText v).toList := by
  rcases boundText_cases isBound with ⟨-, -, text⟩ | ⟨n, -, -, text⟩ | ⟨b, -, text⟩
  · rw [text]
    decide
  · rw [text, Numeral.toList_writeInt]
    exact Numeral.notMem_signedDecimal (by decide) (by decide)
  · rw [text]
    cases b <;> decide

/-- A bound of not too many digits is read as itself. -/
theorem readEnd?_of_isDecimal (isBound : v.IsBound bound) (decimal : v.IsDecimal) :
    readEnd? (boundText v).toList = some bound := by
  rcases decimal with rfl | ⟨n, rfl, -⟩
  · cases bound with
    | none => rfl
    | some n => cases isBound
  · cases bound with
    | none => cases isBound
    | some m =>
      cases isBound
      exact RangeReading.readEnd?_writeInt n

/-- A bound that can be written and read has not too many digits. -/
theorem isDecimal_of_readEnd? (isBound : v.IsBound bound)
    (showable : v.IsShowable) {e : Option Int}
    (read : readEnd? (boundText v).toList = some e) :
    v.IsDecimal := by
  rcases boundText_cases isBound with ⟨missing, -, -⟩ | ⟨n, rfl, -, -⟩ | ⟨b, -, text⟩
  · exact .inl missing
  · exact .inr ⟨n, rfl, Value.isShowable_int_iff.mp showable⟩
  · have unread : readEnd? (Value.boolWord b).toList = .none := by
      cases b <;> decide
    rw [text, unread] at read
    cases read

end Bound

/-! ## Intervals -/

/-- The literal of the interval can be written and read, and says of every whole number whether the
interval contains it. -/
def IsDenoted (i : Interval) : Prop :=
  ∃ s reading, i.text = .ok s ∧ read? s = some reading ∧
    ∀ x : Int, i.contains (.int x) = .ok (decide (reading.Holds x))

/-- Both bounds are missing, or numbers of not too many digits. -/
def HasDecimalBounds (i : Interval) : Prop :=
  i.lower.IsDecimal ∧ i.upper.IsDecimal

/-- The interval is not declared empty, and its bounds are these, which are in order. -/
structure IsOrdered (i : Interval) (low high : Option Int) : Prop where
  notEmpty : i.empty = false
  lower : i.lower.IsBound low
  upper : i.upper.IsBound high
  ordered : ∀ l ∈ low, ∀ h ∈ high, l ≤ h

theorem hasDecimalBounds_none : Interval.none.HasDecimalBounds :=
  ⟨.inl rfl, .inl rfl⟩

theorem isDenoted_none : Interval.none.IsDenoted :=
  ⟨"empty", .empty, rfl, rfl, fun _ => rfl⟩

variable {i : Interval}

theorem text_eq_ok_iff (notEmpty : i.empty = false) {s : String} :
    i.text = .ok s ↔ (i.lower.IsShowable ∧ i.upper.IsShowable) ∧ s = i.literal := by
  rw [← Value.isWritable_iff, ← Value.isWritable_iff, ← Bool.and_eq_true, text, notEmpty,
    Bool.false_or]
  split
  · next showable =>
    rw [Except.ok.injEq, and_iff_right showable]
    exact eq_comm
  · next overlong => exact iff_of_false nofun fun both => overlong both.1

theorem toList_literal (notEmpty : i.empty = false) :
    i.literal.toList =
      i.brackets.1 :: ((boundText i.lower).toList ++ ',' :: (boundText i.upper).toList ++
        [i.brackets.2]) := by
  rw [literal, if_neg (Bool.eq_false_iff.mp notEmpty)]
  simp

/-- Between the brackets of an interval stand its bounds. -/
theorem read?_literal (notEmpty : i.empty = false) :
    read? i.literal =
      (readEnds? ((boundText i.lower).toList ++ ',' :: (boundText i.upper).toList)).map fun ends =>
        .between ends.1 ends.2 i.lowerInclusive i.upperInclusive := by
  have opened : RangeReading.opens? i.brackets.1 = some i.lowerInclusive := by
    rw [brackets]
    cases i.lowerInclusive <;> rfl
  have closed : RangeReading.closes? i.brackets.2 = some i.upperInclusive := by
    rw [brackets]
    cases i.upperInclusive <;> rfl
  have noWord : i.literal ≠ "empty" := by
    intro word
    have first := congrArg (fun s : String => s.toList.head?.bind RangeReading.opens?) word
    simp only [toList_literal notEmpty, List.head?_cons, Option.bind_some, opened] at first
    cases first
  rw [read?, if_neg noWord, toList_literal notEmpty, List.head?_cons, Option.bind_some, opened,
    ← List.cons_append, List.getLast?_append, List.getLast?_singleton, Option.some_or,
    Option.bind_some, closed, List.cons_append, List.tail_cons, List.dropLast_concat]
  generalize readEnds? _ = ends
  cases ends <;> rfl

theorem IsOrdered.isDenoted_iff {low high : Option Int} (proper : i.IsOrdered low high) :
    i.IsDenoted ↔ i.HasDecimalBounds := by
  have read := read?_literal proper.notEmpty
  rw [RangeReading.readEnds?_append (comma_notMem_boundText proper.lower)
    (comma_notMem_boundText proper.upper)] at read
  constructor
  · rintro ⟨s, reading, written, found, -⟩
    rcases (text_eq_ok_iff proper.notEmpty).mp written with ⟨⟨lower, upper⟩, rfl⟩
    rw [read, Option.map_eq_some_iff] at found
    rcases found with ⟨ends, found, -⟩
    rcases Option.bind_eq_some_iff.mp found with ⟨_, foundLower, found⟩
    rcases Option.bind_eq_some_iff.mp found with ⟨_, foundUpper, -⟩
    exact ⟨isDecimal_of_readEnd? proper.lower lower foundLower,
      isDecimal_of_readEnd? proper.upper upper foundUpper⟩
  · rintro ⟨lower, upper⟩
    refine ⟨i.literal, .between low high i.lowerInclusive i.upperInclusive, ?_, ?_, ?_⟩
    · exact (text_eq_ok_iff proper.notEmpty).mpr
        ⟨⟨lower.isShowable, upper.isShowable⟩, rfl⟩
    · rw [read, readEnd?_of_isDecimal proper.lower lower, Option.bind_some,
        readEnd?_of_isDecimal proper.upper upper, Option.bind_some, if_pos proper.ordered,
        Option.map_some]
    · exact contains_of_bounds proper.notEmpty proper.lower proper.upper

end Interval

end LedgerQuery
