/-!
# Query parameters

The parameters that the engine itself understands.
-/

namespace LedgerQuery

/-- A query parameter known to the engine. -/
inductive Parameter where
  | accountBalance
  | accountId
  | accountPublicKey
  | blockNumber
  | contractId
  | limit
  | nodeId
  | order
  | scheduleId
  | serialNumber
  | slot
  | spenderId
  | timestamp
  | tokenId
  deriving DecidableEq, Repr

namespace Parameter

/-- The parameters in their canonical order. -/
def all : List Parameter :=
  [accountBalance, accountId, accountPublicKey, blockNumber, contractId, limit, nodeId, order,
    scheduleId, serialNumber, slot, spenderId, timestamp, tokenId]

/-- The key of a parameter in a query. -/
def word : Parameter → String
  | accountBalance => "account.balance"
  | accountId => "account.id"
  | accountPublicKey => "account.publickey"
  | blockNumber => "block.number"
  | contractId => "contract.id"
  | limit => "limit"
  | nodeId => "node.id"
  | order => "order"
  | scheduleId => "schedule.id"
  | serialNumber => "serialnumber"
  | slot => "slot"
  | spenderId => "spender.id"
  | timestamp => "timestamp"
  | tokenId => "token.id"

/-- The name of a parameter, in capitals. -/
def name : Parameter → String
  | accountBalance => "ACCOUNT_BALANCE"
  | accountId => "ACCOUNT_ID"
  | accountPublicKey => "ACCOUNT_PUBLICKEY"
  | blockNumber => "BLOCK_NUMBER"
  | contractId => "CONTRACT_ID"
  | limit => "LIMIT"
  | nodeId => "NODE_ID"
  | order => "ORDER"
  | scheduleId => "SCHEDULE_ID"
  | serialNumber => "SERIAL_NUMBER"
  | slot => "SLOT"
  | spenderId => "SPENDER_ID"
  | timestamp => "TIMESTAMP"
  | tokenId => "TOKEN_ID"

/-- The parameter of a key. -/
def ofWord? (s : String) : Option Parameter :=
  all.find? fun p => p.word == s

@[simp]
theorem ofWord?_word (p : Parameter) : ofWord? p.word = some p := by
  cases p <;> decide

end Parameter

end LedgerQuery
