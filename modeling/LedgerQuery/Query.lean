import LedgerQuery.Parameter
import LedgerQuery.Token

/-!
# Queries

A query maps keys to values, each key once, and keeps the order of its keys.
-/

namespace LedgerQuery

/-- The keys of a query with their values. -/
abbrev Query := List (String × Value)

namespace Query

/-- The value of a key, or nothing. -/
def get (query : Query) (key : String) : Value :=
  (query.lookup key).getD .null

/-- The texts of the values of every key. -/
def texts (query : Query) : Except Fault (List (String × List String)) :=
  query.mapM fun entry => do
    let values ← valueTexts entry.2
    return (entry.1, values)

/-- The query of texts, each key with the list of its values. -/
def ofTexts (tokens : List (String × List String)) : Query :=
  tokens.map fun entry => (entry.1, .list (entry.2.map .text))

end Query

/-- The direction that a value names; any other value refuses the parameter. -/
def Order.ofValue (v : Value) : Except Fault Order :=
  match v.asText?.bind Order.ofWord? with
  | some order => .ok order
  | none => .error (.invalidParameter Parameter.order.word)

end LedgerQuery
