/-!
# Binary floating point numbers of 64 bits

A number is held by its bit pattern and everything is computed on the exact value that the pattern
stands for, `significand * 2 ^ exponent`, so no law of machine arithmetic is needed.  Rounding goes
to the nearest number, a tie to the one with an even significand.
-/

namespace LedgerQuery.Numeral

/-- A floating point number, by its bit pattern. -/
structure Binary64 where
  /-- The sign bit, eleven bits of exponent and fifty-two bits of fraction. -/
  bits : UInt64
  deriving DecidableEq, Repr

namespace Binary64

/-- What a bit pattern stands for. -/
inductive Reading where
  | nan
  | infinite (negative : Bool)
  /-- `significand * 2 ^ exponent`, negated when `negative`. -/
  | finite (negative : Bool) (significand : Nat) (exponent : Int)
  deriving DecidableEq, Repr

/-- The value of a bit pattern. -/
def reading (x : Binary64) : Reading :=
  let n := x.bits.toNat
  let negative := n / (1 <<< 63) == 1
  let exponent : Nat := n / (1 <<< 52) % (1 <<< 11)
  let fraction : Nat := n % (1 <<< 52)
  if exponent = 2047 then
    if fraction = 0 then .infinite negative else .nan
  else if exponent = 0 then .finite negative fraction (-1074)
  else .finite negative ((1 <<< 52) + fraction) ((exponent : Int) - 1075)

/-- Put a sign and the lower sixty-three bits together. -/
def ofParts (negative : Bool) (magnitude : Nat) : Binary64 :=
  ⟨UInt64.ofNat ((if negative then 1 <<< 63 else 0) + magnitude)⟩

/-- The pattern of an infinity. -/
def infinity (negative : Bool) : Binary64 :=
  ofParts negative (2047 <<< 52)

/-- The pattern written for a number that is none. -/
def nan : Binary64 :=
  ofParts false ((2047 <<< 52) + (1 <<< 51))

/-- A quotient rounded to the nearest whole number, a tie to the even one. -/
def roundHalfEven (numerator denominator : Nat) : Nat :=
  let quotient := numerator / denominator
  let twice := 2 * (numerator % denominator)
  if twice < denominator then quotient
  else if denominator < twice then quotient + 1
  else quotient + quotient % 2

/-- A quotient of natural numbers times a power of two, as a quotient. -/
def scaled (numerator denominator : Nat) (exponent : Int) : Nat × Nat :=
  match exponent with
  | .ofNat e => (numerator <<< e, denominator)
  | .negSucc e => (numerator, denominator <<< (e + 1))

/-- The floating point number nearest to a quotient.  Beyond the greatest finite number lies
infinity. -/
def ofRatio (negative : Bool) (numerator denominator : Nat) : Binary64 :=
  if numerator = 0 ∨ denominator = 0 then ofParts negative 0
  else
    -- The exponent for which the significand has fifty-three bits, or the least one.
    let guess : Int := (numerator.log2 : Int) - denominator.log2 - 52
    let (p, q) := scaled numerator denominator (-guess)
    let fitted := if p < q <<< 52 then guess - 1 else guess
    let exponent := max fitted (-1074)
    let (p, q) := scaled numerator denominator (-exponent)
    let significand := roundHalfEven p q
    let (significand, exponent) :=
      if significand = 1 <<< 53 then (1 <<< 52, exponent + 1) else (significand, exponent)
    if 971 < exponent then infinity negative
    else if significand < 1 <<< 52 then ofParts negative significand
    else ofParts negative (((exponent + 1075).toNat <<< 52) + (significand - (1 <<< 52)))

/-- The floating point number nearest to an integer. -/
def ofInt (n : Int) : Binary64 :=
  ofRatio (n < 0) n.natAbs 1

/-- The exact value of a finite number as a quotient, sign apart. -/
def ratio (significand : Nat) (exponent : Int) : Nat × Nat :=
  scaled significand 1 exponent

/-- Whether a number has the minus sign, a negative zero included; the number that is none has no
sign. -/
def isNegative (x : Binary64) : Bool :=
  match x.reading with
  | .nan => false
  | .infinite negative | .finite negative _ _ => negative

/-- Whether a number is a zero of either sign. -/
def isZero (x : Binary64) : Bool :=
  x.reading matches .finite _ 0 _

/-- A quotient of integers rounded to the nearest floating point number; none when it lies beyond
the greatest finite one or the divisor is zero. -/
def quotient? (numerator denominator : Int) : Option Binary64 :=
  if denominator = 0 then none
  else
    let x := ofRatio ((numerator < 0) != (denominator < 0)) numerator.natAbs denominator.natAbs
    if x.reading matches .infinite _ then none else some x

/-- The whole part of a finite number, cut toward zero. -/
def truncate (negative : Bool) (significand : Nat) (exponent : Int) : Int :=
  let (p, q) := ratio significand exponent
  if negative then -((p / q : Nat) : Int) else ((p / q : Nat) : Int)

/-- The finite value as a signed numerator and a positive denominator. -/
def signedRatio (negative : Bool) (significand : Nat) (exponent : Int) : Int × Nat :=
  let (p, q) := ratio significand exponent
  (if negative then -(p : Int) else (p : Int), q)

/-- A floating point number moved by an integer, rounded. -/
def shift (x : Binary64) (step : Int) : Binary64 :=
  match x.reading with
  | .finite negative significand exponent =>
    let (p, q) := signedRatio negative significand exponent
    let sum := p + step * q
    ofRatio (if sum = 0 then false else sum < 0) sum.natAbs q
  | _ => x

end Binary64

end LedgerQuery.Numeral
