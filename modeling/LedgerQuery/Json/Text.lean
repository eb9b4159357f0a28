import LedgerQuery.Text.Base64
import LedgerQuery.Value.Basic

/-!
# JSON text

Values as compact JSON.  Members keep their order.  Quotes, backslashes and the control characters
below the blank are escaped, everything else stands as it is.  Whole numbers are written with all
their digits, however many these are.  Bytes are base 64 text, operators and entity ids are their
own text, and a number that is not finite is nothing.
-/

namespace LedgerQuery.Json

/-- The letter of a control character that has one. -/
def shortEscape? (c : Char) : Option Char :=
  if c = '\x08' then some 'b'
  else if c = '\t' then some 't'
  else if c = '\n' then some 'n'
  else if c = '\x0c' then some 'f'
  else if c = '\r' then some 'r'
  else none

/-- A character inside a JSON string. -/
def escape (c : Char) : List Char :=
  if c = '"' ∨ c = '\\' then ['\\', c]
  else if c.toNat < 0x20 then
    match shortEscape? c with
    | some letter => ['\\', letter]
    | none => '\\' :: 'u' :: Text.Hex.fixed 4 c.toNat
  else [c]

/-- A text as a JSON string. -/
def string (s : String) : List Char :=
  '"' :: s.toList.flatMap escape ++ ['"']

/-- A word of the JSON grammar. -/
def boolWord (b : Bool) : List Char :=
  if b then "true".toList else "false".toList

/-- A JSON array of written elements. -/
def array (elements : List (List Char)) : List Char :=
  '[' :: [','].intercalate elements ++ [']']

/-- A JSON object of written members. -/
def object (members : List (List Char)) : List Char :=
  '\x7b' :: [','].intercalate members ++ ['\x7d']

mutual

/-- A value as JSON. -/
def write : Value → List Char
  | .null => "null".toList
  | .bool b => boolWord b
  | .int n => Numeral.signedDecimal n
  | .float x =>
    match x.recordText? with
    | some s => s.toList
    | none => "null".toList
  | .text s => string s
  | .bytes b => '"' :: Text.Base64.encode b ++ ['"']
  | .list items => array (writeItems items)
  | .tuple items => array (writeItems items)
  | .operator o => string o.word
  | .entity id => string id.text
  | .pair o v => array [string o.word, write v]
  | .cursor v inclusive primary => array [write v, boolWord inclusive, boolWord primary]
  | .map entries => object (writeMembers entries)

/-- The elements of a sequence as JSON. -/
def writeItems : List Value → List (List Char)
  | [] => []
  | v :: vs => write v :: writeItems vs

/-- The members of a mapping as JSON. -/
def writeMembers : List (String × Value) → List (List Char)
  | [] => []
  | (name, v) :: rest => (string name ++ ':' :: write v) :: writeMembers rest

end

/-- The JSON text of a value. -/
def text (v : Value) : String :=
  String.ofList (write v)

end LedgerQuery.Json
