import LedgerQuery.Journal.Event
import LedgerQuery.Key.Basic
import LedgerQuery.Parameter
import LedgerQuery.Sql.Placeholder

/-!
# Vocabularies

The closed sets of words that the engine uses, each word with its name in capitals.
-/

namespace LedgerQuery

/-- A closed set of words. -/
inductive Vocabulary where
  | parameters
  | orders
  | keyTypes
  | operators
  | events
  | styles
  deriving DecidableEq, Repr

/-- A word with its name. -/
structure Member where
  name : String
  text : String
  deriving DecidableEq, Repr

namespace Vocabulary

/-- The vocabularies in their canonical order. -/
def all : List Vocabulary :=
  [parameters, orders, keyTypes, operators, events, styles]

/-- The name of a vocabulary. -/
def name : Vocabulary → String
  | parameters => "FilterKey"
  | orders => "Order"
  | keyTypes => "KeyType"
  | operators => "Operator"
  | events => "FilterEvent"
  | styles => "PlaceholderStyle"

/-- The vocabulary of a name. -/
def ofName? (s : String) : Option Vocabulary :=
  all.find? fun v => v.name == s

/-- The words of a vocabulary, in order. -/
def members : Vocabulary → List Member
  | parameters => Parameter.all.map fun p => ⟨p.name, p.word⟩
  | orders => Order.all.map fun o => ⟨o.name, o.word⟩
  | keyTypes => KeyType.all.map fun t => ⟨t.name, t.word⟩
  | operators => Operator.all.map fun o => ⟨o.name, o.word⟩
  | events => EventKind.all.map fun e => ⟨e.name, e.word⟩
  | styles => Sql.Style.all.map fun s => ⟨s.name, s.word⟩

/-- The member that a value names. -/
def find (v : Vocabulary) (word : Value) : Except Fault Member :=
  match word.asText?.bind fun s => v.members.find? fun m => m.text == s with
  | some m => .ok m
  | none => .error (.unreadable (.member word.quoted v.name))

end Vocabulary

end LedgerQuery
