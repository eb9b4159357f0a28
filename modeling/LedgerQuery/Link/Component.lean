import LedgerQuery.Text.Hex
import LedgerQuery.Text.Utf8

/-!
# Components of a link

A name or a value in a link is written octet by octet: letters, digits and a few marks stand as they
are, a blank becomes a plus sign, and any other octet becomes a percent sign with two hexadecimal
digits in capitals.
-/

namespace LedgerQuery.Link

/-- The capital hexadecimal digit of a value below sixteen. -/
def capitalDigit (value : Nat) : Char :=
  "0123456789ABCDEF".toList.getD value '0'

/-- Whether a character stands as it is. -/
def isSafe (c : Char) : Bool :=
  c.isAlphanum || c == '_' || c == '.' || c == '-' || c == '~' || c == ':'

/-- An octet as a percent sign and two digits. -/
def percent (octet : Nat) : List Char :=
  ['%', capitalDigit (octet / 16), capitalDigit (octet % 16)]

/-- A character in a component. -/
def escape (c : Char) : List Char :=
  if isSafe c then [c]
  else if c = ' ' then ['+']
  else (Text.Utf8.octets c.toNat).flatMap percent

/-- The characters of a text as a component. -/
def component (cs : List Char) : List Char :=
  cs.flatMap escape

/-- The octet that two hexadecimal digits spell. -/
def octet? (high low : Char) : Option Nat :=
  match Text.Hex.value? high, Text.Hex.value? low with
  | some h, some l => some (16 * h + l)
  | _, _ => none

/-- The octets of a component, of which the first `skip` characters are used up.  A percent sign
without two digits behind it stands for itself. -/
def unescapeFrom : (skip : Nat) → List Char → List Nat
  | _, [] => []
  | skip + 1, _ :: cs => unescapeFrom skip cs
  | 0, c :: cs =>
    if c = '+' then 0x20 :: unescapeFrom 0 cs
    else if c = '%' then
      match cs with
      | high :: low :: _ =>
        match octet? high low with
        | some octet => octet :: unescapeFrom 2 cs
        | none => 0x25 :: unescapeFrom 0 cs
      | _ => 0x25 :: unescapeFrom 0 cs
    else Text.Utf8.octets c.toNat ++ unescapeFrom 0 cs

/-- The characters that a component stands for. -/
def readComponent (cs : List Char) : List Char :=
  Text.Utf8.decode (unescapeFrom 0 cs)

end LedgerQuery.Link
