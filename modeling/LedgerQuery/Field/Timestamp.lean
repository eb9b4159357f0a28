import LedgerQuery.Text.Line
import LedgerQuery.Value.Basic

/-!
# Timestamps

A timestamp is written as seconds with an optional decimal fraction of up to nine digits and held as
a whole number of nanoseconds.
-/

namespace LedgerQuery.Field

open Numeral (isRun value)
open Text (line)

/-- The number of nanoseconds in a second. -/
def nanosPerSecond : Nat := 1000000000

/-- The digits of a timestamp before and behind the point. -/
def timestampDigits? (s : String) : Option (List Char × List Char) :=
  match (line s.toList).splitOn '.' with
  | [seconds] => if isRun 1 10 seconds then some (seconds, []) else none
  | [seconds, nanos] =>
    if isRun 1 10 seconds && isRun 1 9 nanos then some (seconds, nanos) else none
  | _ => none

/-- Digits filled up with zeros on the right to nine places. -/
def nineDigits (nanos : List Char) : List Char :=
  nanos ++ List.replicate (9 - nanos.length) '0'

/-- The nanoseconds of a timestamp text. -/
def timestampOfText? (s : String) : Option Nat :=
  (timestampDigits? s).map fun parts =>
    value parts.1 * nanosPerSecond + value (nineDigits parts.2)

/-- Whether a value is a timestamp text. -/
def isTimestamp (v : Value) : Bool :=
  match v.asText? with
  | some s => (timestampDigits? s).isSome
  | none => false

/-- The nanoseconds of a timestamp text, or nothing for any other value. -/
def parseTimestamp (v : Value) : Value :=
  match v.asText?.bind timestampOfText? with
  | some n => .int n
  | none => .null

/-- Nanoseconds as seconds and nine more digits behind a separator. -/
def secondsText (separator : String) (n : Int) : String :=
  Numeral.writeInt (n / nanosPerSecond) ++ separator ++
    String.ofList (Numeral.padded 9 (n % nanosPerSecond).toNat)

/-- Write a number of nanoseconds in seconds, if these can be written; nothing stays nothing. -/
def formatTimestamp (separator : String) (v : Value) : Except Fault Value :=
  match v with
  | .null => .ok .null
  | _ => do
    let n ← v.toInt
    (Value.int (n / nanosPerSecond)).ifWritable (.text (secondsText separator n))

/-- The id of a transaction: the payer and the start of its validity. -/
def transactionId (payer start : Value) : Except Fault String := do
  let payer ← payer.written
  let validStart ← formatTimestamp "-" start
  return payer ++ "-" ++ (← validStart.written)

end LedgerQuery.Field
