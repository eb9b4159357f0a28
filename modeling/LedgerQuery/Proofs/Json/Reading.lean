import LedgerQuery.Json.Text
import LedgerQuery.Numeral.FloatLiteral

/-!
# Reading JSON

A reader of JSON text, strict and of the whole grammar.  The text is cut into
lexemes: the marks of the grammar, and the scalars, which are strings, numbers
and the three words.  White space may stand between lexemes.  The lexemes are put
together while a stack holds the lists and mappings that are still open.

Members stay in the order of the text, and a name that is given twice is kept
twice.  A number without fraction and power is a whole number of any size.
-/

namespace LedgerQuery.Json

open Numeral (Binary64)

/-! ## Strings -/

/-- The character that a letter behind a backslash stands for. -/
def unescape? : Char → Option Char
  | '"' => some '"'
  | '\\' => some '\\'
  | '/' => some '/'
  | 'b' => some '\x08'
  | 'f' => some '\x0c'
  | 'n' => some '\n'
  | 'r' => some '\r'
  | 't' => some '\t'
  | _ => none

/-- The code unit of hexadecimal digits. -/
def unit? (digits : List Char) : Option Nat :=
  (digits.mapM Text.Hex.value?).map (Numeral.ofDigits 16)

/-- Put a unit in front of what is read behind it. -/
def ahead (unit : Nat) (found : List Nat × List Char) : List Nat × List Char :=
  (unit :: found.1, found.2)

/-- The units of a string whose opening quote is read, and what follows its closing quote.  A
character that is not escaped is its code point; control characters have to be escaped. -/
def readUnits : List Char → Option (List Nat × List Char)
  | [] => none
  | c :: cs =>
    if c = '"' then some ([], cs)
    else if c = '\\' then
      match cs with
      | [] => none
      | letter :: rest =>
        match unescape? letter with
        | some d => (readUnits rest).map (ahead d.toNat)
        | none =>
          match letter, rest with
          | 'u', a :: b :: d :: e :: rest =>
            (unit? [a, b, d, e]).bind fun unit => (readUnits rest).map (ahead unit)
          | _, _ => none
    else if c.toNat < 0x20 then none
    else (readUnits cs).map (ahead c.toNat)

/-- Whether a unit is the first half of a pair that stands for one character. -/
def isFirstHalf (unit : Nat) : Bool :=
  0xd800 ≤ unit && unit < 0xdc00

/-- Whether a unit is the second half of such a pair. -/
def isSecondHalf (unit : Nat) : Bool :=
  0xdc00 ≤ unit && unit < 0xe000

/-- The characters of units; a half without its other half stands for none. -/
def ofUnits? : List Nat → Option (List Char)
  | [] => some []
  | unit :: units =>
    if isFirstHalf unit then
      match units with
      | second :: rest =>
        if isSecondHalf second then
          (ofUnits? rest).map
            (Char.ofNat (0x10000 + (unit - 0xd800) * 0x400 + (second - 0xdc00)) :: ·)
        else none
      | [] => none
    else if isSecondHalf unit then none
    else (ofUnits? units).map (Char.ofNat unit :: ·)

/-- The text of a string whose opening quote is read, and what follows its closing quote. -/
def readString (cs : List Char) : Option (String × List Char) :=
  (readUnits cs).bind fun found =>
    (ofUnits? found.1).map fun text => (String.ofList text, found.2)

/-! ## Numbers and words -/

/-- Whether a text is one digit or more. -/
def areDigits (cs : List Char) : Bool :=
  !cs.isEmpty && cs.all Char.isDigit

/-- Whether a text is a power of ten behind a number, or nothing. -/
def isPower : List Char → Bool
  | [] => true
  | c :: cs => (c == 'e' || c == 'E') && areDigits (Numeral.splitSign cs).2

/-- Whether a text is what may stand behind the whole part of a number. -/
def isFraction : List Char → Bool
  | '.' :: cs => areDigits (cs.takeWhile Char.isDigit) && isPower (cs.dropWhile Char.isDigit)
  | cs => isPower cs

/-- Whether a text is the whole part of a number: digits, the first of which is zero only where it
is the only one. -/
def isWhole (cs : List Char) : Bool :=
  areDigits cs && (cs.head? != some '0' || cs.length == 1)

/-- The number that a text is; in front of it stands no other sign than a minus sign. -/
def number? (cs : List Char) : Option Value :=
  let (negative, body) := Numeral.splitSign cs
  let whole := body.takeWhile Char.isDigit
  let rest := body.dropWhile Char.isDigit
  if cs.head? = some '+' ∨ isWhole whole = false then none
  else if rest = [] then
    some (.int (if negative then -(Numeral.value whole : Int) else Numeral.value whole))
  else if isFraction rest then (Binary64.read? (String.ofList cs)).map .float
  else none

/-- Whether a character can stand in a number or a word. -/
def isWordChar (c : Char) : Bool :=
  c.isAlphanum || c == '-' || c == '+' || c == '.'

/-- The scalar that is written without quotes. -/
def word? (cs : List Char) : Option Value :=
  if cs = "null".toList then some .null
  else if cs = "true".toList then some (.bool true)
  else if cs = "false".toList then some (.bool false)
  else number? cs

/-! ## Lexemes -/

/-- A piece of JSON text. -/
inductive Lexeme where
  | openList
  | closeList
  | openMap
  | closeMap
  | comma
  | colon
  /-- A string, a number or a word. -/
  | scalar (v : Value)

namespace Lexeme

/-- The lexeme that is a single character. -/
def ofMark? : Char → Option Lexeme
  | '[' => some openList
  | ']' => some closeList
  | '\x7b' => some openMap
  | '\x7d' => some closeMap
  | ',' => some comma
  | ':' => some colon
  | _ => none

/-- The first lexeme of a text, given its first character and the rest, and what follows it. -/
def next (c : Char) (cs : List Char) : Option (Lexeme × List Char) :=
  match ofMark? c with
  | some mark => some (mark, cs)
  | none =>
    if c = '"' then (readString cs).map fun found => (scalar (.text found.1), found.2)
    else if isWordChar c then
      (word? (c :: cs.takeWhile isWordChar)).map fun v => (scalar v, cs.dropWhile isWordChar)
    else none

end Lexeme

/-- White space between lexemes. -/
def isBlank (c : Char) : Bool :=
  c == ' ' || c == '\t' || c == '\n' || c == '\r'

/-! ### Reading goes on behind what is read -/

theorem exists_of_map_ahead
    {unit : Nat} {read : Option (List Nat × List Char)} {found : List Nat × List Char}
    (ahead : read.map (ahead unit) = some found) :
    ∃ inner, read = some inner ∧ found.2 = inner.2 := by
  obtain ⟨inner, behind, rfl⟩ := Option.map_eq_some_iff.mp ahead
  exact ⟨inner, behind, rfl⟩

theorem length_readUnits_le
    {cs : List Char} {found : List Nat × List Char} (read : readUnits cs = some found) :
    found.2.length ≤ cs.length := by
  fun_induction readUnits cs generalizing found with
  | case1 | case3 | case6 | case7 => cases read
  | case2 rest =>
    cases read
    exact Nat.le_succ _
  | case4 letter rest d _ _ ih =>
    obtain ⟨inner, behind, same⟩ := exists_of_map_ahead read
    rw [same]
    exact Nat.le_add_right_of_le (Nat.le_add_right_of_le (ih behind))
  | case5 a b d e rest _ _ ih =>
    obtain ⟨unit, -, read⟩ := Option.bind_eq_some_iff.mp read
    obtain ⟨inner, behind, same⟩ := exists_of_map_ahead read
    rw [same]
    exact Nat.le_trans (ih behind) (List.sublist_append_right [_, _, a, b, d, e] rest).length_le
  | case8 c rest _ _ _ ih =>
    obtain ⟨inner, behind, same⟩ := exists_of_map_ahead read
    rw [same]
    exact Nat.le_add_right_of_le (ih behind)

theorem length_readString_le
    {cs : List Char} {found : String × List Char} (read : readString cs = some found) :
    found.2.length ≤ cs.length := by
  obtain ⟨units, behind, read⟩ := Option.bind_eq_some_iff.mp read
  obtain ⟨text, -, rfl⟩ := Option.map_eq_some_iff.mp read
  exact length_readUnits_le behind

theorem Lexeme.length_next_le
    {c : Char} {cs : List Char} {found : Lexeme × List Char} (read : next c cs = some found) :
    found.2.length ≤ cs.length := by
  rw [next] at read
  split at read
  · cases read
    exact Nat.le_refl _
  · split at read
    · obtain ⟨inner, behind, rfl⟩ := Option.map_eq_some_iff.mp read
      exact length_readString_le behind
    · split at read
      · obtain ⟨v, -, rfl⟩ := Option.map_eq_some_iff.mp read
        exact (List.dropWhile_suffix isWordChar).length_le
      · cases read

/-- The lexemes of a text. -/
def lexemes : List Char → Option (List Lexeme)
  | [] => some []
  | c :: cs =>
    if isBlank c then lexemes cs
    else
      match _ : Lexeme.next c cs with
      | none => none
      | some (lexeme, rest) => (lexemes rest).map (lexeme :: ·)
termination_by cs => cs.length
decreasing_by
  · exact Nat.lt_succ_self _
  · exact Nat.lt_succ_of_le (Lexeme.length_next_le ‹_›)

theorem lexemes_of_next
    {c : Char} {cs rest : List Char} {lexeme : Lexeme} (solid : isBlank c = false)
    (found : Lexeme.next c cs = some (lexeme, rest)) :
    lexemes (c :: cs) = (lexemes rest).map (lexeme :: ·) := by
  rw [lexemes, solid, if_neg Bool.false_ne_true]
  split
  · next nothing => cases nothing.symm.trans found
  · next other => cases other.symm.trans found; rfl

/-! ## Values -/

/-- A list or mapping that is still open. -/
inductive Frame where
  /-- A list with the values that it holds so far. -/
  | list (before : List Value)
  /-- A mapping with the members that it holds so far, and the name of the next one. -/
  | map (before : List (String × Value)) (name : String)

mutual

/-- The value of lexemes, where the next one begins a value.  A list can be closed before its first
value and not behind a comma. -/
def readValue : List Frame → List Lexeme → Option Value
  | frames, .scalar v :: rest => readBehind frames v rest
  | frames, .openList :: rest => readValue (.list [] :: frames) rest
  | .list [] :: frames, .closeList :: rest => readBehind frames (.list []) rest
  | frames, .openMap :: .closeMap :: rest => readBehind frames (.map []) rest
  | frames, .openMap :: .scalar (.text name) :: .colon :: rest =>
    readValue (.map [] name :: frames) rest
  | _, _ => none

/-- The value of lexemes behind a value. -/
def readBehind : List Frame → Value → List Lexeme → Option Value
  | [], v, [] => some v
  | .list before :: frames, v, .comma :: rest => readValue (.list (before ++ [v]) :: frames) rest
  | .list before :: frames, v, .closeList :: rest => readBehind frames (.list (before ++ [v])) rest
  | .map before name :: frames, v, .comma :: .scalar (.text next) :: .colon :: rest =>
    readValue (.map (before ++ [(name, v)]) next :: frames) rest
  | .map before name :: frames, v, .closeMap :: rest =>
    readBehind frames (.map (before ++ [(name, v)])) rest
  | _, _, _ => none

end

/-- The value of a JSON text. -/
def read? (s : String) : Option Value :=
  (lexemes s.toList).bind (readValue [])

end LedgerQuery.Json
