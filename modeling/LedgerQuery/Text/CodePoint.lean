/-!
# Sets of code points

A character property is held as the list of the code point ranges that have it, both ends included.
The tables in the neighbouring modules list the part above the ASCII block; the ASCII part of each
property is written out as a plain test, so that facts about ASCII text need no table.
-/

namespace LedgerQuery.Text

/-- Whether a code point lies in one of the ranges. -/
def inRanges (ranges : List (Nat × Nat)) (codePoint : Nat) : Bool :=
  ranges.any fun range => range.1 ≤ codePoint && codePoint ≤ range.2

/-- A property that is a plain test on the ASCII block and a table above it. -/
def holdsAt (ascii : Char → Bool) (ranges : List (Nat × Nat)) (c : Char) : Bool :=
  if c.toNat < 128 then ascii c else inRanges ranges c.toNat

@[simp]
theorem holdsAt_ascii {ascii : Char → Bool} {ranges : List (Nat × Nat)} {c : Char}
    (isAscii : c.toNat < 128) : holdsAt ascii ranges c = ascii c := by
  simp [holdsAt, isAscii]

end LedgerQuery.Text
