import LedgerQuery.Value.Order

/-!
# Intervals

An interval has a lower and an upper bound, each of which may be missing and may belong to the
interval or not.  A missing bound never belongs to it.  An interval may also be declared empty.

The bounds are dynamic values, since a range column may be compared against text as well as against
numbers.
-/

namespace LedgerQuery

/-- A range of values. -/
structure Interval where
  /-- The lower bound, or nothing. -/
  lower : Value
  /-- The upper bound, or nothing. -/
  upper : Value
  lowerInclusive : Bool
  upperInclusive : Bool
  /-- Whether the interval is declared empty. -/
  empty : Bool
  deriving Repr

/-- Whether a value is nothing. -/
def Value.isNull : Value → Bool
  | .null => true
  | _ => false

namespace Interval

/-- An interval in which a missing bound is marked as not belonging to it. -/
def make (lower upper : Value) (lowerInclusive upperInclusive empty : Bool) : Interval :=
  ⟨lower, upper, lowerInclusive && !lower.isNull, upperInclusive && !upper.isNull, empty⟩

/-- The interval of two bounds that belong to it. -/
def closed (lower upper : Value) : Interval :=
  make lower upper true true false

/-- The interval declared empty. -/
def none : Interval :=
  make .null .null false false true

/-- The brackets of the interval. -/
def brackets (i : Interval) : Char × Char :=
  (if i.lowerInclusive then '[' else '(', if i.upperInclusive then ']' else ')')

/-- Whether a value lies above the lower bound, where there is one. -/
def aboveLower (i : Interval) (v : Value) : Except Fault Bool :=
  if i.lower.isNull then .ok true
  else do
    if ← v.less i.lower then return false
    return !(v.equal i.lower && !i.lowerInclusive)

/-- Whether a value lies below the upper bound, where there is one. -/
def belowUpper (i : Interval) (v : Value) : Except Fault Bool :=
  if i.upper.isNull then .ok true
  else do
    if ← i.upper.less v then return false
    return !(v.equal i.upper && !i.upperInclusive)

/-- Whether a value lies in the interval. -/
def contains (i : Interval) (v : Value) : Except Fault Bool :=
  if i.empty then .ok false
  else do
    if ← i.aboveLower v then i.belowUpper v else return false

/-- Whether the interval holds no whole number: a bound that does not belong to it is moved by one
before the bounds are compared. -/
def isEmpty (i : Interval) : Except Fault Bool :=
  if i.empty then .ok true
  else if i.lower.isNull || i.upper.isNull then .ok false
  else do
    let low ← if i.lowerInclusive then .ok i.lower else i.lower.shift 1
    let high ← if i.upperInclusive then .ok i.upper else i.upper.shift (-1)
    high.less low

/-- The text of a bound: nothing for a missing one. -/
def boundText (bound : Value) : String :=
  if bound.isNull then "" else bound.plain

/-- The interval as a range literal. -/
def literal (i : Interval) : String :=
  if i.empty then "empty"
  else
    String.ofList [i.brackets.1] ++ boundText i.lower ++ "," ++ boundText i.upper ++
      String.ofList [i.brackets.2]

/-- The range literal of an interval whose bounds can be written; the bounds of one that is declared
empty are not written. -/
def text (i : Interval) : Except Fault String :=
  if i.empty || (i.lower.isWritable && i.upper.isWritable) then .ok i.literal
  else .error (.unreadable .writeLimit)

/-- Whether two intervals agree in their bounds and marks. -/
def same (i j : Interval) : Bool :=
  i.lower.equal j.lower && i.upper.equal j.upper && i.lowerInclusive == j.lowerInclusive &&
    i.upperInclusive == j.upperInclusive && i.empty == j.empty

end Interval

end LedgerQuery
