import LedgerQuery.Clause.Basic
import LedgerQuery.Config
import LedgerQuery.Field.Integer
import LedgerQuery.Parameter
import LedgerQuery.Query

/-!
# Page size and direction

The last value given for the page size or the direction counts.  A page size is capped at the
greatest one that the configuration allows.
-/

namespace LedgerQuery.Request

/-- The page size of a text. -/
def readLimit (config : Config) (s : String) : Except Fault Int :=
  match Numeral.integer s with
  | .ok n =>
    if n < 1 then .error (.invalidParameter Parameter.limit.word)
    else .ok (min n config.maxLimit)
  | .error _ => .error (.invalidParameter Parameter.limit.word)

/-- The page size that values give. -/
def limitOf (config : Config) (values : Value) : Except Fault Int := do
  let texts ← valueTexts values
  match texts.getLast? with
  | none => return config.defaultLimit
  | some s => readLimit config s

/-- The page that a request asks for. -/
structure Page where
  /-- The condition on the number of rows. -/
  clause : Clause
  order : Order
  limit : Int
  deriving Repr

/-- The condition on the number of rows. -/
def limitClause (limit : Int) : Clause :=
  ⟨"limit ?", [.int limit]⟩

/-- The page that a query asks for, in the default direction unless it gives one. -/
def pageOf (config : Config) (defaultOrder : Value) (query : Query) : Except Fault Page := do
  let limit ← limitOf config (query.get Parameter.limit.word)
  let orders ← valueTexts (query.get Parameter.order.word)
  let order ← Order.ofValue ((orders.getLast?.map Value.text).getD defaultOrder)
  return ⟨limitClause limit, order, limit⟩

end LedgerQuery.Request
