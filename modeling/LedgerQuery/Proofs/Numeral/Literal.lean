import LedgerQuery.Numeral.Literal
import LedgerQuery.Proofs.Numeral.Decimal
import LedgerQuery.Text.Line
import Mathlib.Data.List.TakeWhile

/-!
# Whole numbers of any length

The reader of integer literals gives up on a literal of too many digits.  Here
is the number that a text stands for however long it is, and what the reader finds
is this number.  A line of digits of any script is its value, a written integer
stands for itself, and a text with a colon is no number.
-/

namespace LedgerQuery.Numeral

open Text (isDigit isPadding strip)

/-- The magnitude of a literal of any length. -/
def magnitude? (cs : List Char) : Option Nat :=
  let groups := cs.splitOn '_'
  if (cs.all fun c => isDigit c || c == '_') && !groups.any List.isEmpty then
    some (value groups.flatten)
  else none

/-- The whole number that a text stands for, however many digits it has. -/
def integer? (s : String) : Option Int :=
  let (negative, body) := splitSign (strip isPadding s.toList)
  (magnitude? body).map fun (n : Nat) => if negative then -(n : Int) else n

/-! ## The reader -/

theorem magnitude?_of_magnitude
    {cs : List Char} {n : Nat}
    (read : magnitude cs = .ok (some n)) :
    magnitude? cs = some n := by
  rw [magnitude] at read
  dsimp only at read
  split at read
  · cases read
  · next filled =>
    split at read
    · cases read
    · split at read
      · next full =>
        have whole := (List.takeWhile_sublist _).eq_of_length full
        have all := List.all_eq_true.mpr (List.takeWhile_eq_self_iff.mp whole)
        rw [whole] at read filled
        cases read
        rw [magnitude?, all]
        simp [filled]
      · cases read

/-- What the reader finds is the number that the text stands for. -/
theorem integer?_of_integer
    {s : String} {n : Int}
    (read : integer s = .ok n) :
    integer? s = some n := by
  rw [integer, literal] at read
  rw [integer?]
  generalize splitSign (strip isPadding s.toList) = parts at read ⊢
  rcases parts with ⟨negative, body⟩
  dsimp only at read ⊢
  split at read
  · cases read
  · cases read
  · next magnitude found =>
    cases read
    rw [magnitude?_of_magnitude found]
    rfl

/-! ## Digits -/

theorem strip_eq_self
    {drop : Char → Bool} {cs : List Char}
    (keeps : ∀ c ∈ cs, drop c = false) :
    strip drop cs = cs := by
  have front {ds : List Char} (keeps : ∀ c ∈ ds, drop c = false) : ds.dropWhile drop = ds := by
    cases ds with
    | nil => rfl
    | cons d ds => exact List.dropWhile_cons_of_neg (by simp [keeps d List.mem_cons_self])
  rw [strip, front keeps, front fun c member => keeps c (List.mem_reverse.mp member),
    List.reverse_reverse]

/-- A line feed behind a line is stripped with the padding. -/
theorem strip_line
    {drop : Char → Bool} (feed : drop '\n' = true)
    {cs : List Char} (keeps : ∀ c ∈ Text.line cs, drop c = false) :
    strip drop cs = Text.line cs := by
  rcases Text.eq_line_or cs with same | behind
  · rw [← same] at keeps
    rw [← same]
    exact strip_eq_self keeps
  · have stripped := strip_eq_self keeps
    generalize Text.line cs = run at keeps behind stripped
    rw [behind]
    cases run with
    | nil => simp [strip, feed]
    | cons c run =>
      have kept : ¬drop c = true := by simp [keeps c List.mem_cons_self]
      rw [strip, List.cons_append, List.dropWhile_cons_of_neg kept]
      rw [strip, List.dropWhile_cons_of_neg kept] at stripped
      rw [← List.cons_append, List.reverse_append, List.reverse_singleton, List.singleton_append,
        List.dropWhile_cons_of_pos feed, stripped]

theorem digits_are_no_padding :
    ∀ first ∈ Text.digitZeros,
      160 < first ∧ (first + 10 ≤ 5760 ∨ 5760 < first) ∧ (first + 10 ≤ 8192 ∨ 12288 < first) := by
  decide

theorem isPadding_of_isDigit {c : Char} (digit : isDigit c = true) : isPadding c = false := by
  simp only [isPadding, Bool.or_eq_false_iff, Bool.and_eq_false_iff, decide_eq_false_iff_not,
    beq_eq_false_iff_ne]
  rcases toNat_of_isDigit digit with ascii | ⟨-, first, member, inside⟩
  · omega
  · have apart := digits_are_no_padding first member
    omega

/-- A character that is no digit does not stand among digits, of whatever kind they are. -/
theorem notMem_of_isDigit
    {digit : Char → Bool} {cs : List Char} (digits : ∀ c ∈ cs, digit c = true)
    {c : Char} (other : digit c = false) :
    c ∉ cs := by
  intro member
  rw [digits c member] at other
  cases other

theorem splitSign_digits {cs : List Char} (digits : ∀ c ∈ cs, isDigit c = true) :
    splitSign cs = (false, cs) := by
  rw [splitSign]
  · rintro ds rfl
    exact notMem_of_isDigit digits (by decide) List.mem_cons_self
  · rintro ds rfl
    exact notMem_of_isDigit digits (by decide) List.mem_cons_self

theorem magnitude?_digits
    {cs : List Char} (digits : ∀ c ∈ cs, isDigit c = true) (some : cs ≠ []) :
    magnitude? cs = .some (value cs) := by
  have oneGroup : cs.splitOn '_' = [cs] :=
    List.splitOn_eq_singleton (notMem_of_isDigit digits (by decide))
  have all : (cs.all fun c => isDigit c || c == '_') = true := by
    rw [List.all_eq_true]
    intro c member
    rw [digits c member, Bool.true_or]
  rw [magnitude?, all, oneGroup]
  simp [some]

theorem magnitude_digits
    {cs : List Char} (digits : ∀ c ∈ cs, isDigit c = true) (some : cs ≠ []) :
    magnitude cs =
      if digitLimit < cs.length then .error (.digitLimit cs.length)
      else .ok (.some (value cs)) := by
  have whole : cs.takeWhile (fun c => isDigit c || c == '_') = cs := by
    rw [List.takeWhile_eq_self_iff]
    intro c member
    rw [digits c member, Bool.true_or]
  have oneGroup : cs.splitOn '_' = [cs] :=
    List.splitOn_eq_singleton (notMem_of_isDigit digits (by decide))
  rw [magnitude]
  dsimp only
  rw [whole, oneGroup]
  simp [some]

/-- The reader finds the number of a line of digits that are not too many. -/
theorem integer_of_digits
    {s : String} (digits : ∀ c ∈ Text.line s.toList, isDigit c = true)
    (some : Text.line s.toList ≠ []) (few : (Text.line s.toList).length ≤ digitLimit) :
    integer s = .ok (value (Text.line s.toList)) := by
  have stripped : strip isPadding s.toList = Text.line s.toList :=
    strip_line (by decide) fun c member => isPadding_of_isDigit (digits c member)
  rw [integer, literal, stripped, splitSign_digits digits]
  dsimp only
  rw [magnitude_digits digits some, if_neg (Nat.not_lt.mpr few)]
  rfl

/-! ## Characters of numbers -/

theorem mem_dropWhile
    {drop : Char → Bool} {c : Char} (kept : drop c = false)
    {cs : List Char} (member : c ∈ cs) :
    c ∈ cs.dropWhile drop := by
  rw [← List.takeWhile_append_dropWhile (p := drop) (l := cs), List.mem_append] at member
  rcases member with dropped | member
  · have inside := List.all_eq_true.mp List.all_takeWhile c dropped
    rw [kept] at inside
    cases inside
  · exact member

theorem mem_strip
    {drop : Char → Bool} {c : Char} (kept : drop c = false)
    {cs : List Char} (member : c ∈ cs) :
    c ∈ strip drop cs := by
  rw [strip, List.mem_reverse]
  apply mem_dropWhile kept
  rw [List.mem_reverse]
  exact mem_dropWhile kept member

theorem mem_splitSign
    {c : Char} (notMinus : c ≠ '-') (notPlus : c ≠ '+')
    {cs : List Char} (member : c ∈ cs) :
    c ∈ (splitSign cs).2 := by
  rw [splitSign.eq_def]
  split
  · exact (List.mem_cons.mp member).resolve_left notMinus
  · exact (List.mem_cons.mp member).resolve_left notPlus
  · exact member

/-- A text with a colon is no whole number. -/
theorem noColon_of_integer {s : String} {n : Int} (read : integer s = .ok n) :
    ':' ∉ s.toList := by
  intro colon
  have spelled := integer?_of_integer read
  have noPadding : isPadding ':' = false := by decide
  have inBody := mem_splitSign (by decide) (by decide) (mem_strip noPadding colon)
  rw [integer?] at spelled
  generalize splitSign (strip isPadding s.toList) = parts at inBody spelled
  rcases Option.map_eq_some_iff.mp spelled with ⟨magnitude, found, -⟩
  rw [magnitude?] at found
  split at found
  · next literal =>
    rw [Bool.and_eq_true] at literal
    exact absurd (List.all_eq_true.mp literal.1 ':' inBody) (by decide)
  · cases found

/-! ## Written integers -/

theorem signedDecimal_eq (n : Int) :
    signedDecimal n = (if n < 0 then ['-'] else []) ++ decimal n.natAbs := by
  cases n with
  | ofNat n => rfl
  | negSucc n =>
    rw [if_pos (Int.negSucc_lt_zero n)]
    rfl

theorem toList_writeInt (n : Int) : (writeInt n).toList = signedDecimal n :=
  String.toList_ofList

theorem mem_signedDecimal {n : Int} {c : Char} (member : c ∈ signedDecimal n) :
    c = '-' ∨ isDigit c = true := by
  rw [signedDecimal_eq, List.mem_append] at member
  rcases member with sign | member
  · split at sign
    · exact Or.inl (List.mem_singleton.mp sign)
    · cases sign
  · exact Or.inr (isDigit_of_mem_decimal member)

theorem notMem_signedDecimal
    {n : Int} {c : Char} (noSign : c ≠ '-') (noDigit : isDigit c = false) :
    c ∉ signedDecimal n := by
  intro member
  rcases mem_signedDecimal member with sign | digit
  · exact noSign sign
  · rw [noDigit] at digit
    cases digit

/-- The sign of a written integer is in front of its digits. -/
theorem splitSign_signedDecimal (n : Int) :
    splitSign (signedDecimal n) = (decide (n < 0), decimal n.natAbs) := by
  rw [signedDecimal_eq]
  by_cases negative : n < 0
  · rw [if_pos negative, decide_eq_true negative]
    rfl
  · rw [if_neg negative, decide_eq_false negative, List.nil_append,
      splitSign_digits fun _ => isDigit_of_mem_decimal]

/-- A written integer has no padding. -/
theorem splitSign_strip_writeInt (n : Int) :
    splitSign (strip isPadding (writeInt n).toList) = (decide (n < 0), decimal n.natAbs) := by
  have stripped : strip isPadding (signedDecimal n) = signedDecimal n := by
    apply strip_eq_self
    intro c member
    rcases mem_signedDecimal member with rfl | digit
    · decide
    · exact isPadding_of_isDigit digit
  rw [toList_writeInt, stripped, splitSign_signedDecimal]

theorem signed_natAbs (n : Int) :
    (if decide (n < 0) = true then -(n.natAbs : Int) else n.natAbs) = n := by
  by_cases negative : n < 0
  · rw [decide_eq_true negative, if_pos rfl]
    omega
  · rw [decide_eq_false negative, if_neg Bool.false_ne_true]
    omega

/-- A written integer stands for itself. -/
theorem integer?_writeInt (n : Int) : integer? (writeInt n) = some n := by
  have spelled : magnitude? (decimal n.natAbs) = some n.natAbs := by
    rw [magnitude?_digits (fun _ => isDigit_of_mem_decimal) (decimal_ne_nil _), value_decimal]
  rw [integer?, splitSign_strip_writeInt]
  dsimp only
  rw [spelled, Option.map_some, signed_natAbs]

/-- The reader finds a written integer unless it has too many digits. -/
theorem integer_writeInt_eq_ok_iff (n : Int) :
    integer (writeInt n) = .ok n ↔ (decimal n.natAbs).length ≤ digitLimit := by
  rw [integer, literal, splitSign_strip_writeInt]
  dsimp only
  rw [magnitude_digits (fun _ => isDigit_of_mem_decimal) (decimal_ne_nil _)]
  by_cases many : digitLimit < (decimal n.natAbs).length
  · rw [if_pos many]
    apply iff_of_false
    · intro impossible
      cases impossible
    · exact Nat.not_le.mpr many
  · rw [if_neg many]
    dsimp only
    rw [value_decimal, signed_natAbs]
    exact iff_of_true rfl (Nat.le_of_not_lt many)

end LedgerQuery.Numeral
