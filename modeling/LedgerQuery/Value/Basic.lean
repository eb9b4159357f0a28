import LedgerQuery.EntityId.Basic
import LedgerQuery.Numeral.Shortest
import LedgerQuery.Numeral.Literal
import LedgerQuery.Text.Quoted

/-!
# Dynamic values

What a query holds, what a codec returns and what is bound to a placeholder has no fixed type.  A
value is one of the plain kinds, a sequence or mapping of values, or one of the engine's own things.
A value has two texts: the plain one, and the quoted one that is used inside messages and sequences.
A number with too many digits has no text, and neither has a value with such a number inside.
-/

namespace LedgerQuery

open Numeral (Binary64)

/-- A value of a type known only at run time. -/
inductive Value where
  | null
  | bool (b : Bool)
  | int (n : Int)
  | float (x : Binary64)
  | text (s : String)
  | bytes (b : List UInt8)
  | list (items : List Value)
  | tuple (items : List Value)
  | operator (o : Operator)
  | entity (id : EntityId)
  /-- An operator with the value it applies to. -/
  | pair (o : Operator) (v : Value)
  /-- The sort key value of the last row of a page. -/
  | cursor (v : Value) (inclusive primary : Bool)
  | map (entries : List (String × Value))
  deriving Repr

namespace Value

/-- The word for a truth value. -/
def boolWord (b : Bool) : String :=
  if b then "True" else "False"

/-- An operator as it is shown inside a message. -/
def shownOperator (o : Operator) : String :=
  "<Operator." ++ o.name ++ ": '" ++ o.word ++ "'>"

mutual

/-- The text of a value inside a message or a sequence. -/
def quoted : Value → String
  | null => "None"
  | bool b => boolWord b
  | int n => Numeral.writeInt n
  | float x => x.text
  | text s => Text.quoted s
  | bytes b => Text.quotedBytes b
  | list items => "[" ++ ", ".intercalate (quotedItems items) ++ "]"
  | tuple items =>
    "(" ++ ", ".intercalate (quotedItems items) ++ (if items.length = 1 then ",)" else ")")
  | operator o => shownOperator o
  | entity id => id.shown
  | pair o v => "OperatorValue(operator=" ++ shownOperator o ++ ", value=" ++ quoted v ++ ")"
  | cursor v inclusive primary =>
    "CursorValue(value=" ++ quoted v ++ ", inclusive=" ++ boolWord inclusive ++ ", primary=" ++
      boolWord primary ++ ")"
  | map entries => String.ofList ['\x7b'] ++ ", ".intercalate (quotedEntries entries) ++
      String.ofList ['\x7d']

/-- The quoted texts of a sequence. -/
def quotedItems : List Value → List String
  | [] => []
  | v :: vs => quoted v :: quotedItems vs

/-- The quoted texts of the entries of a mapping. -/
def quotedEntries : List (String × Value) → List String
  | [] => []
  | (key, v) :: rest => (Text.quoted key ++ ": " ++ quoted v) :: quotedEntries rest

end

mutual

/-- Whether every number inside a value has few enough digits to be written. -/
def isWritable : Value → Bool
  | int n => Numeral.isWritable n
  | list items | tuple items => areWritable items
  | pair _ v => isWritable v
  | cursor v _ _ => isWritable v
  | map entries => areWritableEntries entries
  | _ => true

/-- The same of the values of a sequence. -/
def areWritable : List Value → Bool
  | [] => true
  | v :: vs => isWritable v && areWritable vs

/-- The same of the values in the entries of a mapping. -/
def areWritableEntries : List (String × Value) → Bool
  | [] => true
  | (_, v) :: rest => isWritable v && areWritableEntries rest

end

/-- The plain text of a value. -/
def plain : Value → String
  | text s => s
  | operator o => o.word
  | entity id => id.text
  | pair o v => o.word ++ ":" ++ plain v
  | v => v.quoted

/-- What is made of the text of a value, if the value can be written. -/
def ifWritable {α : Type} (v : Value) (result : α) : Except Fault α :=
  if v.isWritable then .ok result else .error (.unreadable .writeLimit)

/-- The quoted text of a value that can be written. -/
def shown (v : Value) : Except Fault String :=
  v.ifWritable v.quoted

/-- The plain text of a value that can be written. -/
def written (v : Value) : Except Fault String :=
  v.ifWritable v.plain

/-- Whether a value counts as true: it is neither nothing, zero nor empty. -/
def truthy : Value → Bool
  | null => false
  | bool b => b
  | int n => n != 0
  | float x => !x.isZero
  | text s => !s.isEmpty
  | bytes b => !b.isEmpty
  | list items | tuple items => !items.isEmpty
  | map entries => !entries.isEmpty
  | _ => true

/-- The text of a value that is a text; an operator is the text of its word. -/
def asText? : Value → Option String
  | text s => some s
  | operator o => some o.word
  | _ => none

/-- The values that a sequence or mapping holds, one after the other. -/
def elements : Value → Except Fault (List Value)
  | text s => .ok (s.toList.map fun c => .text (String.ofList [c]))
  | operator o => .ok (o.word.toList.map fun c => .text (String.ofList [c]))
  | bytes b => .ok (b.map fun byte => .int byte.toNat)
  | list items | tuple items => .ok items
  | pair o v => .ok [.operator o, v]
  | cursor v inclusive primary => .ok [v, .bool inclusive, .bool primary]
  | map entries => .ok (entries.map fun entry => .text entry.1)
  | _ => .error .mistyped

/-- The number of things that a value holds. -/
def size (v : Value) : Except Fault Nat :=
  v.elements.map List.length

/-- The whole number of a value: numbers are cut toward zero, texts are read. -/
def toInt : Value → Except Fault Int
  | bool b => .ok (if b then 1 else 0)
  | int n => .ok n
  | float x =>
    match x.reading with
    | .nan => .error (.unreadable .notANumber)
    | .infinite _ => .error .overflow
    | .finite negative significand exponent =>
      .ok (Binary64.truncate negative significand exponent)
  | text s => (Numeral.integer s).mapError .unreadable
  | operator o => (Numeral.literal (shownOperator o) o.word.toList).mapError .unreadable
  | bytes b => (Numeral.integerOfBytes b).mapError .unreadable
  | _ => .error .mistyped

/-- The number of a value that is a whole number by its kind. -/
def integer : Value → Except Fault Int
  | bool b => .ok (if b then 1 else 0)
  | int n => .ok n
  | _ => .error .mistyped

theorem toInt_of_integer {v : Value} {n : Int} (read : v.integer = .ok n) : v.toInt = .ok n := by
  cases v <;> cases read <;> rfl

/-- The floating point number nearest to a number. -/
def toFloat : Value → Except Fault Binary64
  | float x => .ok x
  | bool b => .ok (.ofInt (if b then 1 else 0))
  | int n =>
    match Binary64.quotient? n 1 with
    | some x => .ok x
    | none => .error .overflow
  | _ => .error .mistyped

end Value

end LedgerQuery
