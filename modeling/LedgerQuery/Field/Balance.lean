import LedgerQuery.Text.Line
import LedgerQuery.Value.Basic

/-!
# Balances

A balance is bound to a query as the client wrote it, provided it is a decimal number: an optional
minus sign, digits, and an optional fraction.
-/

namespace LedgerQuery.Field

open Numeral (isRun)
open Text (line)

/-- Whether the characters are one or more digits. -/
def isDigits (cs : List Char) : Bool :=
  !cs.isEmpty && cs.all Text.isDigit

/-- Whether the characters are digits with an optional fraction. -/
def isDecimal (cs : List Char) : Bool :=
  match cs.splitOn '.' with
  | [whole] => isDigits whole
  | [whole, fraction] => isDigits whole && isDigits fraction
  | _ => false

/-- Whether a text is a decimal number. -/
def isDecimalText (s : String) : Bool :=
  match line s.toList with
  | '-' :: cs => isDecimal cs
  | cs => isDecimal cs

/-- Whether a value is a whole number or the text of a decimal one. -/
def isNumeric (v : Value) : Bool :=
  match v with
  | .int _ => true
  | _ => (v.asText?.map isDecimalText).getD false

/-- A numeric value as it is, or nothing. -/
def parseBalance (v : Value) : Value :=
  if isNumeric v then v else .null

end LedgerQuery.Field
