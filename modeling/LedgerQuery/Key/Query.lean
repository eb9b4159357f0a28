import LedgerQuery.Field.Slot

/-!
# Public keys in a query

A client may write a public key as bare hexadecimal digits or wrapped in the DER head of its kind,
in either case and with or without `0x`.  All spellings of a key have one canonical form, the bare
digits in lower case.
-/

namespace LedgerQuery.PublicKey

open Text (line)

/-- The DER head of an ED25519 key. -/
def ed25519Head : List Char :=
  "302a300506032b6570032100".toList

/-- The DER head of an ECDSA key over secp256k1. -/
def ecdsaHead : List Char :=
  "302d300706052b8104000a032200".toList

/-- The characters behind a `0x` or `0X`, or all of them where there is none. -/
def withoutMark : List Char → List Char
  | '0' :: 'x' :: cs => cs
  | '0' :: 'X' :: cs => cs
  | cs => cs

/-- ASCII letters in lower case. -/
def lower (cs : List Char) : List Char :=
  cs.map Char.toLower

/-- Digits of a key of a given length, bare or behind the head of its kind. -/
def body? (head : List Char) (size : Nat) (cs : List Char) : Option (List Char) :=
  if Field.isHexRun size size cs then some cs
  else if head.isPrefixOf (lower cs) && Field.isHexRun size size (cs.drop head.length) then
    some (cs.drop head.length)
  else none

/-- The canonical form of a key text. -/
def canonical? (s : String) : Option String :=
  let cs := withoutMark (line s.toList)
  ((body? ed25519Head 64 cs).or (body? ecdsaHead 66 cs)).map fun digits =>
    String.ofList (lower digits)

/-- The canonical form of a value whose text is a key; any other value as it is. -/
def parse (v : Value) : Value :=
  match v with
  | .null => .null
  | _ =>
    match canonical? v.plain with
    | some digits => .text digits
    | none => v

/-- Whether a value is the text of a key. -/
def isValid (v : Value) : Bool :=
  match v.asText? with
  | some s => (canonical? s).isSome
  | none => false

/-- The text of a key is read as its canonical form. -/
theorem parse_text {s digits : String} (canonical : canonical? s = some digits) :
    parse (.text s) = .text digits := by
  show (match canonical? s with | some digits => Value.text digits | none => .text s) = _
  rw [canonical]

theorem isValid_text (s : String) : isValid (.text s) = (canonical? s).isSome := rfl

end LedgerQuery.PublicKey
