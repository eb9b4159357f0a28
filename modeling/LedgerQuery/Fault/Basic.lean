import LedgerQuery.Numeral.Decimal
import LedgerQuery.Operator
import LedgerQuery.Text.Blank

/-!
# Faults

Everything that can go wrong, by cause.  Faults of a request, of a timestamp range and of a fragment
builder carry a message for their receiver; the others say which kind of value an operation could
not use.  The wording stands in one function for each type.
-/

namespace LedgerQuery

open Numeral (write writeInt)

/-- What is wrong with one parameter of a request. -/
inductive Problem where
  /-- The endpoint does not know the parameter. -/
  | unknown (key : String)
  /-- The parameter is given more often than allowed. -/
  | tooMany (key : String) (count : Nat) (limit : Int)
  /-- A value of the parameter is refused. -/
  | invalid (key : String)
  deriving DecidableEq, Repr

namespace Problem

/-- The parameter concerned. -/
def key : Problem → String
  | unknown key | tooMany key _ _ | invalid key => key

/-- The wording of a problem. -/
def message : Problem → String
  | unknown key => "Unknown query parameter: " ++ key
  | tooMany key count limit =>
    "Too many " ++ key ++ " parameters: " ++ write count ++ " exceeds " ++ writeInt limit
  | invalid key => "Invalid parameter: " ++ key

end Problem

/-- Why an argument is refused. -/
inductive ArgumentFault where
  /-- The problems of one or more parameters. -/
  | problems (problems : List Problem)
  /-- A component of an entity id does not fit its bits. -/
  | entityRange (shard realm num : Int)
  deriving DecidableEq, Repr

namespace ArgumentFault

/-- The fault of one refused parameter. -/
def invalid (key : String) : ArgumentFault :=
  .problems [.invalid key]

/-- The parameters concerned. -/
def params : ArgumentFault → List String
  | problems ps => ps.map Problem.key
  | entityRange _ _ _ => []

/-- One message for each thing that is wrong. -/
def messages : ArgumentFault → List String
  | problems ps => ps.map Problem.message
  | entityRange shard realm num =>
    ["Entity id " ++ writeInt shard ++ "." ++ writeInt realm ++ "." ++ writeInt num ++
      " out of range"]

/-- The messages in one text. -/
def detail (fault : ArgumentFault) : String :=
  if fault.messages.isEmpty then "Invalid argument." else "; ".intercalate fault.messages

end ArgumentFault

/-- Why timestamp filters do not make up a range. -/
inductive RangeFault where
  | noFilter
  | unknownOperator (shown : String)
  | unreadableValue (shown : String)
  | exclusionUnsupported
  | repeatedLower
  | repeatedUpper
  | mixedEquality
  | halfOpen
  | inverted
  /-- The range is wider than allowed; the widest allowed one is given in days. -/
  | tooWide (days : String)
  deriving DecidableEq, Repr

namespace RangeFault

/-- The wording of a range fault. -/
def message : RangeFault → String
  | noFilter => "No timestamp range or eq operator provided"
  | unknownOperator shown => "Invalid timestamp filter operator: " ++ shown
  | unreadableValue shown => "Invalid timestamp filter value: " ++ shown
  | exclusionUnsupported => "Not equal (ne) operator is not supported for timestamp parameter"
  | repeatedLower => "Multiple gt or gte operators not permitted for timestamp parameter"
  | repeatedUpper => "Multiple lt or lte operators not permitted for timestamp parameter"
  | mixedEquality => "Cannot combine eq with ne, gt, gte, lt, or lte for timestamp parameter"
  | halfOpen => "Timestamp range must have gt (or gte) and lt (or lte)"
  | inverted => "Timestamp lower bound must be less than or equal to upper bound"
  | tooWide days =>
    "Timestamp range by the lower and upper bounds must be positive and within " ++ days ++ "d"

end RangeFault

/-- How a fragment builder breaks its contract. -/
inductive ClauseFault where
  /-- The result is no text with a value; it is shown instead. -/
  | notAPair (shown : String)
  /-- Several values where the fragment may bind one only. -/
  | notSingle (text : String) (count : Nat)
  /-- The placeholders and the values differ in number. -/
  | mismatch (text : String) (placeholders values : Nat)
  /-- An ordering operator is asked to compare against a list. -/
  | listComparison (operator : Operator) (column : String)
  deriving DecidableEq, Repr

namespace ClauseFault

/-- The wording of a clause fault; texts are given as they are shown. -/
def message : ClauseFault → String
  | notAPair shown => "Fragment builder must return a (text, value) pair, got " ++ shown
  | notSingle text count =>
    "Fragment " ++ text ++ " must bind exactly one value, got " ++ write count
  | mismatch text placeholders values =>
    "Fragment " ++ text ++ " has " ++ write placeholders ++ " placeholder(s) but " ++
      write values ++ " value(s)"
  | listComparison operator column =>
    "Operator " ++ operator.word ++ " cannot compare " ++ column ++ " against a list"

end ClauseFault

/-- Why a text or a number cannot be read as what is wanted. -/
inductive Misreading where
  /-- The text is no whole number. -/
  | integer (shown : String)
  /-- The text has more digits than are read. -/
  | digitLimit (count : Nat)
  /-- The number has more digits than are written. -/
  | writeLimit
  /-- The number that is none has no whole part. -/
  | notANumber
  /-- The text is no timestamp. -/
  | timestamp (shown : String)
  /-- The text is not hexadecimal at a position. -/
  | hexadecimal (position : Nat)
  /-- A number does not fit a byte. -/
  | octet
  /-- A negative number of bytes is asked for. -/
  | negativeCount
  /-- The text names no member of a vocabulary. -/
  | member (shown vocabulary : String)
  /-- A message or line template cannot be filled in. -/
  | template
  deriving DecidableEq, Repr

/-- The greatest number of digits that is read or written as one number. -/
def digitLimit : Nat := 4300

/-- Whether a number has few enough digits to be written. -/
@[irreducible]
def Numeral.isWritable (n : Int) : Bool :=
  n.natAbs < Nat.pow 10 digitLimit

theorem Numeral.isWritable_iff {n : Int} :
    isWritable n = true ↔ n.natAbs < Nat.pow 10 digitLimit := by
  unfold isWritable
  exact decide_eq_true_iff

theorem Numeral.isWritable_of_lt
    {n : Int} (count : Nat) (few : count ≤ digitLimit) (short : n.natAbs < Nat.pow 10 count) :
    isWritable n = true := by
  have below (limit : Nat) (room : count ≤ limit) : n.natAbs < Nat.pow 10 limit :=
    Nat.lt_of_lt_of_le short (Nat.pow_le_pow_right (by decide) room)
  exact isWritable_iff.mpr (below digitLimit few)

/-- The least number of parts that no text and no run of bytes has room for. -/
def capacity : Nat := 1 <<< 32

/-- The number of characters of a refused text that a message shows. -/
def shownLimit : Nat := 200

/-- The first characters of a shown text. -/
def cut (shown : String) : String :=
  String.ofList (shown.toList.take shownLimit)

namespace Misreading

/-- The wording of a misreading. -/
def message : Misreading → String
  | integer shown => "invalid literal for int() with base 10: " ++ cut shown
  | digitLimit count =>
    "Exceeds the limit (" ++ write LedgerQuery.digitLimit ++
      " digits) for integer string conversion: value has " ++ write count ++
      " digits; use sys.set_int_max_str_digits() to increase the limit"
  | writeLimit =>
    "Exceeds the limit (" ++ write LedgerQuery.digitLimit ++
      " digits) for integer string conversion; use sys.set_int_max_str_digits() to increase" ++
      " the limit"
  | notANumber => "cannot convert float NaN to integer"
  | timestamp shown => "Invalid timestamp " ++ shown
  | hexadecimal position =>
    "non-hexadecimal number found in fromhex() arg at position " ++ write position
  | octet => "bytes must be in range(0, 256)"
  | negativeCount => "negative count"
  | member shown vocabulary => shown ++ " is not a valid " ++ vocabulary
  | template => "incomplete format"

end Misreading

/-- A failure of the engine. -/
inductive Fault where
  /-- The client's input is malformed or not allowed. -/
  | argument (cause : ArgumentFault)
  /-- The timestamp filters do not make up a range. -/
  | range (cause : RangeFault)
  /-- A fragment builder breaks its contract. -/
  | clause (cause : ClauseFault)
  /-- A text or a number cannot be read. -/
  | unreadable (cause : Misreading)
  /-- The operation has no meaning for a value of this type. -/
  | mistyped
  /-- A mapping lacks an entry. -/
  | missing (key : String)
  /-- The number is too large for the operation. -/
  | overflow
  /-- The result would have more parts than can be held. -/
  | exhausted
  /-- The value or class lacks the operation asked for. -/
  | unsupported
  /-- The bytes are no ASCII text. -/
  | notAscii
  deriving DecidableEq, Repr

namespace Fault

/-- The message for the receiver, without blanks at its ends; empty where the kind says it all. -/
def message : Fault → String
  | argument cause => Text.trim cause.detail
  | range cause => Text.trim cause.message
  | clause cause => Text.trim cause.message
  | unreadable cause => cause.message
  | _ => ""

/-- The parameters concerned. -/
def params : Fault → List String
  | argument cause => cause.params
  | _ => []

/-- One message for each thing that is wrong with the input. -/
def messages : Fault → List String
  | argument cause => cause.messages
  | range cause => [cause.message]
  | _ => []

/-- The fault of one refused parameter. -/
def invalidParameter (key : String) : Fault :=
  .argument (.invalid key)

end Fault

end LedgerQuery
