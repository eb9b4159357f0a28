import LedgerQuery.Text.Digit

/-!
# Decimal numerals

Whole numbers as decimal text.  Writing uses the ASCII digits without leading zeros; reading accepts
the decimal digits of every script and any number of leading zeros.
-/

namespace LedgerQuery.Numeral

/-- The number that a list of digit values spells in a base, most significant digit first. -/
def ofDigits (base : Nat) (digits : List Nat) : Nat :=
  digits.foldl (fun value digit => base * value + digit) 0

/-- The decimal digits of a natural number. -/
def decimal (n : Nat) : List Char :=
  Nat.toDigits 10 n

/-- The decimal text of a natural number. -/
def write (n : Nat) : String :=
  String.ofList (decimal n)

/-- The decimal digits of an integer, with a minus sign in front of a negative one. -/
def signedDecimal : Int → List Char
  | .ofNat n => decimal n
  | .negSucc n => '-' :: decimal (n + 1)

/-- The decimal text of an integer. -/
def writeInt (n : Int) : String :=
  String.ofList (signedDecimal n)

/-- The digits of a number filled up with zeros on the left to a least width. -/
def padded (width n : Nat) : List Char :=
  let text := decimal n
  List.replicate (width - text.length) '0' ++ text

/-- The number that a run of decimal digits spells; characters that are no digits do not count. -/
def value (cs : List Char) : Nat :=
  ofDigits 10 (cs.filterMap Text.digitValue?)

/-- Whether a text begins with a minus sign, and the text behind one sign. -/
def splitSign : List Char → Bool × List Char
  | '-' :: cs => (true, cs)
  | '+' :: cs => (false, cs)
  | cs => (false, cs)

/-- Whether a text is a run of decimal digits whose length lies within the bounds. -/
def isRun (least most : Nat) (cs : List Char) : Bool :=
  cs.all Text.isDigit && least ≤ cs.length && cs.length ≤ most

end LedgerQuery.Numeral
