import LedgerQuery.Numeral.Rounded
import LedgerQuery.Value.Basic

/-!
# What a directive makes of a value

The letter of a directive says what becomes of the value: `s` is its plain text, `r` the quoted one,
`a` the quoted one in ASCII, `c` a character, `d`, `i` and `u` a whole number in base ten, `o`, `x`
and `X` one in base eight or sixteen, and `e`, `f`, `g` with their capitals a rounded number.  The
precision cuts a text, is the least count of digits of a whole number and the count of places of a
rounded one.  What is shorter than the width is filled up, on the left with blanks or, a number,
with zeros behind its sign.
-/

namespace LedgerQuery.Text

open Numeral (Binary64 Form Rounding)

/-- How the text of a value is cut, marked and filled up. -/
structure Conversion where
  /-- Fill up on the right. -/
  left : Bool := false
  /-- Put a plus sign in front of a number that has no minus sign. -/
  plus : Bool := false
  /-- Put a blank there instead. -/
  blank : Bool := false
  /-- Write the mark of the base, or the point and the zeros of a rounded number. -/
  full : Bool := false
  /-- Fill up a number with zeros. -/
  zeros : Bool := false
  width : Nat := 0
  precision : Option Nat := none
  deriving DecidableEq, Repr

namespace Conversion

/-- The conversion that a list of marks asks for. -/
def ofMarks (marks : List Char) : Conversion where
  left := marks.contains '-'
  plus := marks.contains '+'
  blank := marks.contains ' '
  full := marks.contains '#'
  zeros := marks.contains '0'

/-- Fill up a text with something in front of it that zeros do not come before. -/
def pad (c : Conversion) (zeros : Bool) (front body : List Char) : Except Fault (List Char) :=
  let room := c.width - (front.length + body.length)
  if 0 < room ∧ capacity ≤ c.width then .error .exhausted
  else if c.left then .ok (front ++ body ++ List.replicate room ' ')
  else if zeros then .ok (front ++ List.replicate room '0' ++ body)
  else .ok (List.replicate room ' ' ++ front ++ body)

/-- A text cut to the precision. -/
def ofText (c : Conversion) (s : String) : Except Fault (List Char) :=
  c.pad false [] (match c.precision with
    | some n => s.toList.take n
    | none => s.toList)

/-- The sign of a number. -/
def sign (c : Conversion) (negative : Bool) : List Char :=
  if negative then ['-'] else if c.plus then ['+'] else if c.blank then [' '] else []

/-- The greatest precision of a whole number. -/
def maxDigits : Nat := (1 <<< 31) - 4

/-- A whole number in a base; a mark in front of the digits names the base. -/
def ofNumber (c : Conversion) (base : Nat) (mark : List Char) (capital : Bool) (n : Int) :
    Except Fault (List Char) :=
  let digits := Nat.toDigits base n.natAbs
  let digits := if capital then digits.map Char.toUpper else digits
  if maxDigits < c.precision.getD 0 then .error .overflow
  else
    c.pad c.zeros (c.sign (n < 0) ++ (if c.full then mark else []))
      (List.replicate (c.precision.getD 0 - digits.length) '0' ++ digits)

/-- A rounded number; in capitals the words for what is not finite are capital too. -/
def ofFloat (c : Conversion) (form : Form) (capital : Bool) (x : Binary64) :
    Except Fault (List Char) :=
  let text := (Rounding.mk form (c.precision.getD 6) c.full).magnitude x
  c.pad c.zeros (c.sign x.isNegative) (if capital then text.map Char.toUpper else text)

/-- A text with everything beyond ASCII given by number. -/
def asciiText (s : String) : String :=
  String.ofList (s.toList.flatMap fun c => if c.toNat < 128 then [c] else codeEscape c.toNat)

/-- The whole number of a number, if it can be written in base ten. -/
def wholeNumber (v : Value) : Except Fault Int :=
  match v with
  | .bool _ | .int _ | .float _ => do v.ifWritable (← v.toInt)
  | _ => .error .mistyped

/-- The only character of a text, or the character of a number. -/
def character (v : Value) : Except Fault Char :=
  match v with
  | .text s =>
    match s.toList with
    | [c] => .ok c
    | _ => .error .mistyped
  | _ => do
    let n ← v.integer
    if 0 ≤ n ∧ n < 0x110000 then return Char.ofNat n.toNat else throw .overflow

/-- What becomes of a value under a letter; other letters make a template unusable. -/
def apply (c : Conversion) (letter : Char) (v : Value) : Except Fault (List Char) :=
  match letter with
  | 's' => do c.ofText (← v.written)
  | 'r' => do c.ofText (← v.shown)
  | 'a' => do c.ofText (asciiText (← v.shown))
  | 'c' => do c.pad false [] [← character v]
  | 'd' | 'i' | 'u' => do c.ofNumber 10 [] false (← wholeNumber v)
  | 'o' => do c.ofNumber 8 ['0', 'o'] false (← v.integer)
  | 'x' => do c.ofNumber 16 ['0', 'x'] false (← v.integer)
  | 'X' => do c.ofNumber 16 ['0', 'X'] true (← v.integer)
  | 'e' => do c.ofFloat .exponent false (← v.toFloat)
  | 'E' => do c.ofFloat .exponent true (← v.toFloat)
  | 'f' => do c.ofFloat .fixed false (← v.toFloat)
  | 'F' => do c.ofFloat .fixed true (← v.toFloat)
  | 'g' => do c.ofFloat .general false (← v.toFloat)
  | 'G' => do c.ofFloat .general true (← v.toFloat)
  | _ => .error (.unreadable .template)

end Conversion

end LedgerQuery.Text
