import LedgerQuery.Numeral.Shortest

/-!
# Rounded text of numbers

A number is written with a chosen precision in one of three forms: with a fixed count of decimal
places, with an exponent behind a fixed count of places, or with a count of significant digits in
whichever of the two notations suits its size.  The exact value is rounded once, a tie to the even
digit.  The third form drops the zeros at the end unless everything is to stay.
-/

namespace LedgerQuery.Numeral

/-- The notation of a rounded number. -/
inductive Form where
  /-- Decimal places, no exponent. -/
  | fixed
  /-- One digit before the point and an exponent. -/
  | exponent
  /-- Significant digits; an exponent where the number is small or has more digits than asked for.
  -/
  | general
  deriving DecidableEq, Repr

/-- How a number is rounded and written. -/
structure Rounding where
  form : Form
  /-- The count of decimal places or, in the general form, of significant digits. -/
  precision : Nat := 6
  /-- Whether the point and the zeros behind it always stay. -/
  full : Bool := false
  deriving DecidableEq, Repr

/-- Whole digits and decimal places with a point between; a lone point is written where it is to
stay. -/
def pointed (keepPoint : Bool) (whole places : List Char) : List Char :=
  if places.isEmpty && !keepPoint then whole else whole ++ '.' :: places

/-- A quotient with a fixed count of decimal places. -/
def fixedText (places : Nat) (keepPoint : Bool) (numerator denominator : Nat) : List Char :=
  let shifted := numerator * Nat.pow 10 places
  let digits := padded (places + 1) (Binary64.roundHalfEven shifted denominator)
  let whole := digits.length - places
  pointed keepPoint (digits.take whole) (digits.drop whole)

/-- A power of ten: a sign and two digits at least. -/
def exponentMark (exponent : Int) : List Char :=
  'e' :: (if exponent < 0 then '-' else '+') :: padded 2 exponent.natAbs

namespace Scientific

/-- The digits rounded to a count of significant ones; zero has one digit. -/
def ofRatio (count numerator denominator : Nat) : Scientific :=
  if numerator = 0 then ⟨['0'], 1⟩ else significant count numerator denominator

/-- The same number with zeros added up to a count of digits. -/
def filled (count : Nat) (s : Scientific) : Scientific :=
  { s with digits := s.digits ++ List.replicate (count - s.digits.length) '0' }

/-- One digit before the point and an exponent. -/
def withExponent (keepPoint : Bool) (s : Scientific) : List Char :=
  pointed keepPoint (s.digits.take 1) (s.digits.drop 1) ++ exponentMark (s.point - 1)

/-- All digits in their places. -/
def inPlace (keepPoint : Bool) (s : Scientific) : List Char :=
  if s.point ≤ 0 then pointed keepPoint ['0'] (List.replicate (-s.point).toNat '0' ++ s.digits)
  else
    let whole := s.point.toNat
    let digits := (s.filled whole).digits
    pointed keepPoint (digits.take whole) (digits.drop whole)

end Scientific

namespace Rounding

/-- The text of a quotient. -/
def ofRatio (r : Rounding) (numerator denominator : Nat) : List Char :=
  match r.form with
  | .fixed => fixedText r.precision r.full numerator denominator
  | .exponent =>
    let count := r.precision + 1
    ((Scientific.ofRatio count numerator denominator).filled count).withExponent r.full
  | .general =>
    let count := max r.precision 1
    let s := Scientific.ofRatio count numerator denominator
    let s := if r.full then s.filled count else s
    if -4 < s.point ∧ s.point ≤ count then s.inPlace r.full else s.withExponent r.full

/-- The text of a number without its sign. -/
def magnitude (r : Rounding) (x : Binary64) : List Char :=
  match x.reading with
  | .nan => "nan".toList
  | .infinite _ => "inf".toList
  | .finite _ significand exponent =>
    let (p, q) := Binary64.ratio significand exponent
    r.ofRatio p q

/-- The text of a number with a minus sign in front of a negative one. -/
def text (r : Rounding) (x : Binary64) : String :=
  String.ofList (if x.isNegative then '-' :: r.magnitude x else r.magnitude x)

end Rounding

end LedgerQuery.Numeral
