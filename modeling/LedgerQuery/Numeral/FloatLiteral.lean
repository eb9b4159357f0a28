import LedgerQuery.Numeral.Shortest
import LedgerQuery.Text.Blank

/-!
# Floating point literals

The text of a number that need not be whole: white space around it, one sign, decimal digits of any
script with an optional fraction and an optional power of ten, and single low lines between digits.
The words for infinity and for the number that is none are read in any case.
-/

namespace LedgerQuery.Numeral

open Binary64
open Text (isDigit isPadding strip)

/-- Whether every low line stands between two digits. -/
def separatesDigits : List Char → Bool
  | a :: '_' :: b :: rest => isDigit a && isDigit b && separatesDigits (b :: rest)
  | '_' :: _ => false
  | [_, '_'] => false
  | _ :: rest => separatesDigits rest
  | [] => true

/-- The power of ten at the end of a literal; none there stands for zero. -/
def exponent? : List Char → Option Int
  | [] => some 0
  | c :: cs =>
    let (negative, digits) := splitSign cs
    if (c = 'e' ∨ c = 'E') ∧ !digits.isEmpty ∧ digits.all isDigit then
      some (if negative then -(value digits : Int) else value digits)
    else none

/-- The number nearest to `units * 10 ^ places`. -/
def ofUnits (negative : Bool) (units : Nat) (places : Int) : Binary64 :=
  let point := places + ((decimal units).length : Int)
  if units = 0 then ofParts negative 0
  -- No number with so large or so small a power of ten is finite and above zero.
  else if 400 < point then infinity negative
  else if point < -400 then ofParts negative 0
  else
    let (p, q) := scaledTen units 1 places
    ofRatio negative p q

/-- Read a decimal number without its sign. -/
def ofDecimal? (negative : Bool) (cs : List Char) : Option Binary64 :=
  let whole := cs.takeWhile isDigit
  let (fraction, rest) := match cs.dropWhile isDigit with
    | '.' :: rest => (rest.takeWhile isDigit, rest.dropWhile isDigit)
    | rest => ([], rest)
  let digits := whole ++ fraction
  if digits.isEmpty then none
  else (exponent? rest).map fun exponent =>
    ofUnits negative (value digits) (exponent - (fraction.length : Int))

namespace Binary64

/-- Read a literal. -/
def read? (s : String) : Option Binary64 :=
  let (negative, cs) := splitSign (strip isPadding s.toList)
  let word := String.ofList (cs.map Char.toLower)
  if word = "inf" ∨ word = "infinity" then some (infinity negative)
  else if word = "nan" then some nan
  else if separatesDigits cs then ofDecimal? negative (cs.filter (· != '_'))
  else none

end Binary64

end LedgerQuery.Numeral
