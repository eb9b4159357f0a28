import LedgerQuery.Fault.Basic
import LedgerQuery.Text.Quoted

/-!
# Integer literals

The text of a whole number in base ten: white space around it, one sign, and decimal digits of any
script with single low lines between them.  A literal of too many digits is refused unread.
-/

namespace LedgerQuery.Numeral

open Text (digitValue? isDigit isPadding strip)

/-- The magnitude of a literal without its sign. -/
def magnitude (cs : List Char) : Except Misreading (Option Nat) :=
  let run := cs.takeWhile fun c => isDigit c || c == '_'
  let groups := run.splitOn '_'
  if groups.any List.isEmpty then .ok none
  else
    let count := groups.flatten.length
    if digitLimit < count then .error (.digitLimit count)
    else if run.length = cs.length then .ok (some (value groups.flatten))
    else .ok none

/-- Read a literal; a text that is none is reported as `shown`. -/
def literal (shown : String) (cs : List Char) : Except Misreading Int :=
  let (negative, body) := splitSign (strip isPadding cs)
  match magnitude body with
  | .error cause => .error cause
  | .ok none => .error (.integer shown)
  | .ok (some n) => .ok (if negative then -(n : Int) else n)

/-- Read the text of a whole number. -/
def integer (s : String) : Except Misreading Int :=
  literal (Text.quoted s) s.toList

/-- Read the ASCII text of a whole number from bytes. -/
def integerOfBytes (bytes : List UInt8) : Except Misreading Int :=
  -- A byte above the ASCII block is no digit, no sign and no blank.
  literal (Text.quotedBytes bytes)
    (bytes.map fun byte => if byte < 128 then Char.ofNat byte.toNat else '?')

end LedgerQuery.Numeral
