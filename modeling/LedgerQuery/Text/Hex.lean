/-!
# Hexadecimal text

Bytes as pairs of hexadecimal digits, most significant digit first.  Writing uses lower-case
letters; reading accepts either case.
-/

namespace LedgerQuery.Text.Hex

/-- The lower-case digit of a value below sixteen. -/
def digit (value : Nat) : Char :=
  "0123456789abcdef".toList.getD value '0'

/-- The value of an ASCII hexadecimal digit of either case. -/
def value? (c : Char) : Option Nat :=
  if '0' ≤ c ∧ c ≤ '9' then some (c.toNat - 48)
  else if 'a' ≤ c ∧ c ≤ 'f' then some (c.toNat - 87)
  else if 'A' ≤ c ∧ c ≤ 'F' then some (c.toNat - 55)
  else none

/-- Whether a character is an ASCII hexadecimal digit. -/
def isDigit (c : Char) : Bool :=
  (value? c).isSome

/-- The two digits of a byte. -/
def ofByte (byte : UInt8) : List Char :=
  [digit (byte.toNat / 16), digit (byte.toNat % 16)]

/-- The digits of a byte string, two for each byte. -/
def ofBytes (bytes : List UInt8) : List Char :=
  bytes.flatMap ofByte

/-- The byte string as text. -/
def write (bytes : List UInt8) : String :=
  String.ofList (ofBytes bytes)

/-- The last `width` hexadecimal digits of a number, padded with zeros. -/
def fixed : (width : Nat) → Nat → List Char
  | 0, _ => []
  | width + 1, n => fixed width (n / 16) ++ [digit (n % 16)]

/-- White space that may stand between two bytes. -/
def isGap (c : Char) : Bool :=
  (9 ≤ c.toNat && c.toNat ≤ 13) || c.toNat == 32

/-- Read bytes from digit pairs, with gaps allowed between the pairs.  A failure gives the position
of the first character that is out of place, counted from `position`. -/
def readFrom (position : Nat) : List Char → Except Nat (List UInt8)
  | [] => .ok []
  | c :: cs =>
    if isGap c then readFrom (position + 1) cs
    else
      match value? c, cs with
      | none, _ => .error position
      | some _, [] => .error (position + 1)
      | some high, d :: rest =>
        match value? d with
        | none => .error (position + 1)
        | some low => do
          let bytes ← readFrom (position + 2) rest
          return UInt8.ofNat (16 * high + low) :: bytes

/-- Read a text of digit pairs.  A character outside the ASCII block is reported before any other
fault. -/
def read (cs : List Char) : Except Nat (List UInt8) :=
  match cs.findIdx? (fun c => 128 ≤ c.toNat) with
  | some position => .error position
  | none => readFrom 0 cs

/-- The number that a byte string spells, most significant byte first. -/
def bigEndian (bytes : List UInt8) : Nat :=
  bytes.foldl (fun value byte => 256 * value + byte.toNat) 0

end LedgerQuery.Text.Hex
