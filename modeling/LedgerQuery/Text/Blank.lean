/-!
# Blank characters

Two sets of white space occur.  Message texts are trimmed of every blank; around a number the four
information separators do not count.
-/

namespace LedgerQuery.Text

/-- The white space allowed around a number. -/
def isPadding (c : Char) : Bool :=
  (9 ≤ c.toNat && c.toNat ≤ 13) || c.toNat == 32 || c.toNat == 133 || c.toNat == 160 ||
    c.toNat == 5760 || (8192 ≤ c.toNat && c.toNat ≤ 8202) || c.toNat == 8232 || c.toNat == 8233 ||
    c.toNat == 8239 || c.toNat == 8287 || c.toNat == 12288

/-- White space of any kind, the information separators included. -/
def isBlank (c : Char) : Bool :=
  isPadding c || (28 ≤ c.toNat && c.toNat ≤ 31)

/-- Drop the characters of a set from both ends. -/
def strip (drop : Char → Bool) (cs : List Char) : List Char :=
  (cs.dropWhile drop).reverse.dropWhile drop |>.reverse

/-- A text without the blanks at its ends. -/
def trim (s : String) : String :=
  String.ofList (strip isBlank s.toList)

end LedgerQuery.Text
