import LedgerQuery.Text.Hex
import LedgerQuery.Text.Line
import LedgerQuery.Value.Basic

/-!
# Hexadecimal fields

Storage slots and transaction hashes are hexadecimal text with an optional `0x` in front.  A slot is
stored without its leading zeros, or filled up with them to thirty-two bytes.
-/

namespace LedgerQuery.Field

open Text (line)

/-- The characters behind a `0x`, or all of them where there is none. -/
def withoutMark : List Char → List Char
  | '0' :: 'x' :: cs => cs
  | cs => cs

/-- A text without a `0x` in front; other values stay as they are. -/
def stripHexMark (v : Value) : Value :=
  match v with
  | .text s => .text (String.ofList (withoutMark s.toList))
  | _ => v

/-- The greatest number of bytes that can be asked for: what fits 63 bits beside a head of 33 bytes.
-/
def maxOctets : Int := (1 <<< 63 : Nat) - 1 - 33

/-- The bytes that a value denotes where hexadecimal text is expected. -/
def octets (v : Value) : Except Fault (List UInt8) :=
  match v with
  | .bytes b => .ok b
  | .bool b => .ok (List.replicate (if b then 1 else 0) 0)
  | .int n =>
    if n < -(1 <<< 63 : Nat) ∨ maxOctets < n then .error .overflow
    else if n < 0 then .error (.unreadable .negativeCount)
    else if capacity ≤ n then .error .exhausted
    else .ok (List.replicate n.toNat 0)
  | _ => do
    let items ← v.elements
    items.mapM fun item =>
      match item with
      | .bool b => .ok (if b then 1 else 0)
      | .int n =>
        if 0 ≤ n ∧ n < 256 then .ok (UInt8.ofNat n.toNat) else .error (.unreadable .octet)
      | _ => .error .mistyped

/-- Bytes as the ASCII text they spell. -/
def asciiText (bytes : List UInt8) : Except Fault (List Char) :=
  if bytes.all (· < 128) then .ok (bytes.map fun byte => Char.ofNat byte.toNat)
  else .error .notAscii

/-- Hexadecimal text with one `0x` in front; bytes stand for the text that they spell. -/
def addHexMark (v : Value) : Except Fault String :=
  match v with
  | .null => .ok "0x"
  | _ =>
    match v.asText? with
    | some s => .ok (String.ofList ('0' :: 'x' :: withoutMark s.toList))
    | none => do
      let cs ← asciiText (← octets v)
      return String.ofList ('0' :: 'x' :: withoutMark cs)

/-- Put a zero in front of an odd number of characters. -/
def evenLength (cs : List Char) : List Char :=
  if cs.length % 2 = 1 then '0' :: cs else cs

/-- The bytes of hexadecimal text without a mark. -/
def hexBytes (cs : List Char) : Except Fault (List UInt8) :=
  (Text.Hex.read (evenLength cs)).mapError fun position => .unreadable (.hexadecimal position)

/-- The bytes of hexadecimal text. -/
def parseHex (v : Value) : Except Fault (List UInt8) :=
  match v.asText? with
  | some s => hexBytes (withoutMark s.toList)
  | none => do
    -- A collection of odd size is shown with a zero in front, which is no hexadecimal text.
    if (← v.size) % 2 = 1 then hexBytes ('0' :: (← v.written).toList) else .error .mistyped

/-- The digits of a slot: filled up to sixty-four, or without leading zeros. -/
def slotDigits (leftPad : Bool) (cs : List Char) : List Char :=
  let body := withoutMark cs
  if leftPad then List.replicate (64 - body.length) '0' ++ body
  else body.dropWhile (· == '0')

/-- The stored bytes of a slot text. -/
def slotBytes (leftPad : Bool) (s : String) : Except Fault (List UInt8) :=
  hexBytes (withoutMark (slotDigits leftPad s.toList))

/-- The stored bytes of a slot. -/
def formatSlot (v : Value) (leftPad : Bool) : Except Fault (List UInt8) :=
  match v.asText?, v with
  | some s, _ => slotBytes leftPad s
  | none, .bytes _ => .error .mistyped
  | none, _ => .error .unsupported

/-- The number that a slot stands for. -/
def slotValue (v : Value) : Except Fault Nat :=
  (formatSlot v false).map Text.Hex.bigEndian

/-- Whether the characters are hexadecimal digits, between `least` and `most` of them. -/
def isHexRun (least most : Nat) (cs : List Char) : Bool :=
  cs.all Text.Hex.isDigit && least ≤ cs.length && cs.length ≤ most

/-- Whether a value is the text of hexadecimal digits with an optional `0x`. -/
def isHexText (least most : Nat) (v : Value) : Bool :=
  match v.asText? with
  | some s => isHexRun least most (withoutMark (line s.toList))
  | none => false

/-- Whether a value is a slot text. -/
def isSlot (v : Value) : Bool :=
  isHexText 1 64 v

/-- Whether a value is the text of a transaction hash. -/
def isEthHash (v : Value) : Bool :=
  isHexText 64 64 v

end LedgerQuery.Field
