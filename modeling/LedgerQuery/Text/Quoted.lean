import LedgerQuery.Text.Hex
import LedgerQuery.Text.Printable

/-!
# Quoted text

The form in which a text is shown inside a message: between single quotes, or between double quotes
when it holds a single quote and no double one.  The quote in use and the backslash take a backslash
in front, line feed, carriage return and tab have letters, and what is not printable is given by its
code point.
-/

namespace LedgerQuery.Text

/-- The quote that a text is shown in. -/
def quoteFor (cs : List Char) : Char :=
  if cs.contains '\'' && !cs.contains '"' then '"' else '\''

/-- A code point by number, in the shortest of the three lengths that fits. -/
def codeEscape (codePoint : Nat) : List Char :=
  if codePoint < 256 then '\\' :: 'x' :: Hex.fixed 2 codePoint
  else if codePoint < 65536 then '\\' :: 'u' :: Hex.fixed 4 codePoint
  else '\\' :: 'U' :: Hex.fixed 8 codePoint

/-- One character between quotes; `plain` says which characters are shown as they are. -/
def escape (quote : Char) (plain : Char → Bool) (c : Char) : List Char :=
  if c = quote ∨ c = '\\' then ['\\', c]
  else if c = '\n' then ['\\', 'n']
  else if c = '\r' then ['\\', 'r']
  else if c = '\t' then ['\\', 't']
  else if plain c then [c]
  else codeEscape c.toNat

/-- The text between the quotes chosen for it. -/
def quoteWith (plain : Char → Bool) (cs : List Char) : List Char :=
  let quote := quoteFor cs
  quote :: cs.flatMap (escape quote plain) ++ [quote]

/-- A text as it is shown inside a message. -/
def quoted (s : String) : String :=
  String.ofList (quoteWith isPrintable s.toList)

/-- A byte string as it is shown inside a message: a quoted text of the ASCII characters with a `b`
in front, every byte that is not a printable ASCII character given by number. -/
def quotedBytes (bytes : List UInt8) : String :=
  let cs := bytes.map fun byte => Char.ofNat byte.toNat
  String.ofList ('b' :: quoteWith (fun c => 32 ≤ c.toNat && c.toNat < 127) cs)

end LedgerQuery.Text
