import LedgerQuery.Text.Line
import LedgerQuery.Value.Basic

/-!
# Whole numbers in a query

Whole numbers come as numbers or as decimal text.  A truth value is a number where one is converted,
but no number where a range is checked.
-/

namespace LedgerQuery.Field

open Numeral (isRun value)
open Text (line)

/-- The greatest signed number of 64 bits. -/
def maxLong : Nat := (1 <<< 63) - 1

/-- The greatest signed number of 32 bits. -/
def maxInt32 : Nat := (1 <<< 31) - 1

/-- Convert a number or the text of one; numbers and truth values stay as they are. -/
def parseInteger (v : Value) : Except Fault Value :=
  match v with
  | .bool _ | .int _ => .ok v
  | .text _ | .operator _ | .bytes _ => v.toInt.map .int
  | _ => .error .mistyped

/-- Whether a number lies between the least allowed one and the greatest of 64 bits. -/
def isLong (allowZero : Bool) (n : Int) : Bool :=
  decide ((if allowZero then 0 else 1) ≤ n) && decide (n ≤ maxLong)

/-- The number that a run of at most nineteen digits spells. -/
def longText? (s : String) : Option Nat :=
  let cs := line s.toList
  if isRun 1 19 cs then some (value cs) else none

/-- Whether a value is a positive number of 64 bits, given as number or text; zero counts where it
is allowed. -/
def isPositiveLong (v : Value) (allowZero : Bool) : Bool :=
  match v with
  | .int n => isLong allowZero n
  | _ =>
    match v.asText?.bind longText? with
    | some n => isLong allowZero n
    | none => false

/-- Whether the text of a value is a run of at most ten digits whose number has 32 bits. -/
def isNonNegativeInt32 (v : Value) : Bool :=
  let cs := line v.plain.toList
  isRun 1 10 cs && value cs ≤ maxInt32

/-- The same test of a value that need not have a text: to test it the value is written. -/
def checkNonNegativeInt32 (v : Value) : Except Fault Bool :=
  v.ifWritable (isNonNegativeInt32 v)

end LedgerQuery.Field
