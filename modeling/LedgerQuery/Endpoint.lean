import LedgerQuery.Clause.Parameter
import LedgerQuery.Paging.Next
import LedgerQuery.Request.Page
import LedgerQuery.Request.Validate
import LedgerQuery.Timestamp.RangeColumn

/-!
# Serving a request

One request through all parts of the engine: validation, paging, the clauses of the known parameters
joined into one, the timestamp range and the link to the next page.  A part that fails does not stop
the others.
-/

namespace LedgerQuery.Endpoint

open Paging (nextLink)
open Request (Page)

/-- What each part of the engine makes of a request. -/
structure Report where
  validate : Except Fault Unit
  paging : Except Fault Page
  account : Except Fault Clause
  timestamp : Except Fault Clause
  balance : Except Fault Clause
  key : Except Fault Clause
  /-- The clauses that could be made, joined and numbered. -/
  sql : Clause
  range : Except Fault Timestamp.Merged
  /-- The link to the next page; none without a direction. -/
  next : Option (Except Fault (Option String))

/-- The value of a result as a list of at most one. -/
def succeeded {α : Type} (result : Except Fault α) : List α :=
  match result with
  | .ok a => [a]
  | .error _ => []

/-- The timestamp filters of a query, with their values in nanoseconds where they are timestamps. -/
def timestampFilters (query : Query) : Except Fault (List Timestamp.Filter) := do
  let tokens ← parseTokens (query.get Timestamp.timestampKey) (some timestampEncoder)
  return tokens.map fun t =>
    ⟨Timestamp.timestampKey, t.operator.word, Field.parseTimestamp (.text t.value)⟩

/-- How the timestamp filters of a request are merged. -/
def rangeOptions (config : Config) : Timestamp.Options :=
  { required := false, allowNe := true, allowOpenRange := true, config := config }

/-- The timestamp range of a query. -/
def rangeOf (config : Config) (query : Query) : Traced Timestamp.Merged := do
  let filters ← Traced.lift (timestampFilters query)
  Timestamp.merge (rangeOptions config) filters

/-- Serve a request; the events are those of all parts, one after the other. -/
def serve (config : Config) (accepted : List String) (query last : Query) : Traced Report := do
  let validate ← (Request.validate config accepted [] query).attempt
  let paging ← (Traced.lift (Request.pageOf config (.text Order.desc.word) query)).attempt
  let account ← (accountClause config "t.account_id" query).attempt
  let timestamp ← (timestampClause ⟨"t.consensus_timestamp", []⟩ query).attempt
  let balance ← (balanceClause "t.balance" query).attempt
  let key ← (publicKeyClause "t.public_key" query).attempt
  let clauses := succeeded account ++ succeeded timestamp ++ succeeded balance ++ succeeded key ++
    (succeeded paging).map Page.clause
  let sql := (Clause.join Clause.conjunction clauses).numbered
  let range ← (rangeOf config query).attempt
  let next ← match paging with
    | .error _ => pure none
    | .ok page => do
      let link ← (nextLink (.text page.order.word) query last []).attempt
      pure (some link)
  return ⟨validate, paging, account, timestamp, balance, key, sql, range, next⟩

end LedgerQuery.Endpoint
