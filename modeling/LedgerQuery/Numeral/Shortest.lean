import LedgerQuery.Numeral.Binary64
import LedgerQuery.Numeral.Decimal

/-!
# Decimal text of floating point numbers

Two rules give the digits of a number: as few digits as read back as the same number, or a fixed
count of significant digits.  A layout then says where positional notation ends and how an exponent
is written.
-/

namespace LedgerQuery.Numeral

open Binary64

/-- Digits and a power of ten: the number `0.d₁d₂d₃… * 10 ^ point`. -/
structure Scientific where
  /-- The significant digits, the first one not zero. -/
  digits : List Char
  /-- The place of the decimal point, counted from before the first digit. -/
  point : Int
  deriving DecidableEq, Repr

/-- A quotient times a power of ten, as a quotient. -/
def scaledTen (numerator denominator : Nat) (exponent : Int) : Nat × Nat :=
  match exponent with
  | .ofNat e => (numerator * Nat.pow 10 e, denominator)
  | .negSucc e => (numerator, denominator * Nat.pow 10 (e + 1))

/-- The place of the decimal point of a positive quotient: the least `point` with
`numerator / denominator < 10 ^ point`. -/
def pointOf (numerator denominator : Nat) : Int :=
  let guess : Int :=
    ((decimal numerator).length : Int) - (decimal denominator).length + 1
  let below (point : Int) : Bool :=
    let (p, q) := scaledTen numerator denominator (-point)
    p < q
  if below (guess - 2) then guess - 2
  else if below (guess - 1) then guess - 1
  else guess

/-- Digits without the zeros at their end. -/
def dropTrailingZeros (cs : List Char) : List Char :=
  (cs.reverse.dropWhile (· == '0')).reverse

/-- The scientific form of `units * 10 ^ exponent`. -/
def Scientific.ofUnits (units : Nat) (exponent : Int) : Scientific :=
  let text := decimal units
  ⟨dropTrailingZeros text, exponent + text.length⟩

/-- Whether `units * 10 ^ exponent` reads back as the positive number `x`. -/
def readsBack (x : Binary64) (units : Nat) (exponent : Int) : Bool :=
  let (p, q) := scaledTen units 1 exponent
  ofRatio false p q == x

/-- The nearest neighbour of a positive quotient on the grid of `count` significant digits that
reads back as `x`, if one does. -/
def onGrid? (x : Binary64) (numerator denominator : Nat) (point : Int) (count : Nat) :
    Option Scientific :=
  let exponent := point - count
  let (p, q) := scaledTen numerator denominator (-exponent)
  let nearest := roundHalfEven p q
  let below := p / q
  let other := if nearest = below then below + 1 else below
  if readsBack x nearest exponent then some (.ofUnits nearest exponent)
  else if readsBack x other exponent then some (.ofUnits other exponent)
  else none

/-- The fewest digits that read back as the positive number `x`, whose value is the quotient. -/
def shortest (x : Binary64) (numerator denominator : Nat) : Scientific :=
  let point := pointOf numerator denominator
  match (List.range 17).findSome? fun n => onGrid? x numerator denominator point (n + 1) with
  | some s => s
  | none => .ofUnits (roundHalfEven (scaledTen numerator denominator (17 - point)).1
      (scaledTen numerator denominator (17 - point)).2) (point - 17)

/-- A positive quotient rounded to a count of significant digits, trailing zeros dropped. -/
def significant (count numerator denominator : Nat) : Scientific :=
  let exponent := pointOf numerator denominator - count
  let (p, q) := scaledTen numerator denominator (-exponent)
  .ofUnits (roundHalfEven p q) exponent

/-- How a floating point number is laid out. -/
structure Layout where
  /-- Positional notation is used while the decimal point lies above this place … -/
  above : Int
  /-- … and at or below this one. -/
  upTo : Int
  /-- Whether an exponent that is not negative carries a plus sign. -/
  plus : Bool
  /-- The least count of exponent digits. -/
  exponentWidth : Nat

/-- Positional notation; a whole number ends in `.0`. -/
def Scientific.positional (s : Scientific) : List Char :=
  if s.point ≤ 0 then
    '0' :: '.' :: List.replicate (-s.point).toNat '0' ++ s.digits
  else
    let whole := s.point.toNat
    let body := s.digits ++ List.replicate (whole - s.digits.length) '0'
    let tail := body.drop whole
    if tail.isEmpty then body ++ ['.', '0'] else body.take whole ++ '.' :: tail

/-- Notation with an exponent: one digit before the point. -/
def Scientific.exponential (layout : Layout) (s : Scientific) : List Char :=
  let exponent := s.point - 1
  let sign := if exponent < 0 then ['-'] else if layout.plus then ['+'] else []
  let mantissa := match s.digits with
    | [] => ['0']
    | [d] => [d]
    | d :: ds => d :: '.' :: ds
  mantissa ++ 'e' :: sign ++ padded layout.exponentWidth exponent.natAbs

/-- The text of a positive number in a layout. -/
def Scientific.layOut (layout : Layout) (s : Scientific) : List Char :=
  if layout.above < s.point ∧ s.point ≤ layout.upTo then s.positional
  else s.exponential layout

/-- Values in messages: positional from four zeros behind the point up to sixteen digits. -/
def plainLayout : Layout :=
  ⟨-4, 16, true, 2⟩

/-- Numbers in records: positional from five zeros behind the point up to sixteen digits. -/
def recordLayout : Layout :=
  ⟨-5, 16, false, 1⟩

namespace Binary64

/-- The text of a finite number in a layout, as short as reads back. -/
def format (layout : Layout) (negative : Bool) (significand : Nat) (exponent : Int) : String :=
  let body :=
    if significand = 0 then ['0', '.', '0']
    else
      let (p, q) := ratio significand exponent
      (shortest (ofRatio false p q) p q).layOut layout
  String.ofList (if negative then '-' :: body else body)

/-- The text of a number inside a message, as short as reads back. -/
def text (x : Binary64) : String :=
  match x.reading with
  | .nan => "nan"
  | .infinite negative => if negative then "-inf" else "inf"
  | .finite negative significand exponent =>
    format plainLayout negative significand exponent

/-- The text of a number inside a record; what is not finite has none. -/
def recordText? (x : Binary64) : Option String :=
  match x.reading with
  | .finite negative significand exponent =>
    some (format recordLayout negative significand exponent)
  | _ => none

end Binary64

end LedgerQuery.Numeral
