import LedgerQuery.Clause.Compile
import LedgerQuery.EntityId.Text
import LedgerQuery.Field.Balance
import LedgerQuery.Field.Timestamp
import LedgerQuery.Key.Query
import LedgerQuery.Parameter
import LedgerQuery.Query

/-!
# Clauses of the known parameters

The account, timestamp, balance and public key parameters as conditions on a column.
-/

namespace LedgerQuery

/-- The encoded number of an account id, refused under the name of its parameter. -/
def accountEncoder (config : Config) : Encoder :=
  fun v => (EntityId.parse config (some Parameter.accountId.word) v).map fun id => .int id.encoded

/-- The nanoseconds of a timestamp; a value that is none is dropped. -/
def timestampEncoder : Encoder :=
  fun v => .ok (Field.parseTimestamp v)

/-- A decimal number as it is written; a value that is none is dropped. -/
def balanceEncoder : Encoder :=
  fun v => .ok (Field.parseBalance v)

/-- The canonical form of a public key. -/
def publicKeyEncoder : Encoder :=
  fun v => v.ifWritable (PublicKey.parse v)

/-- The condition of the account parameter; all equalities make one membership test. -/
def accountClause (config : Config) (column : String) (query : Query) : Traced Clause :=
  compile
    { builder := (Column.mk column []).builder, encoder := some (accountEncoder config),
      gatherEq := true }
    (query.get Parameter.accountId.word)

/-- The condition of the timestamp parameter, one comparison for each value. -/
def timestampClause (column : Column) (query : Query) : Traced Clause :=
  compile { builder := column.builder, encoder := some timestampEncoder }
    (query.get Parameter.timestamp.word)

/-- The condition of the balance parameter. -/
def balanceClause (column : String) (query : Query) : Traced Clause :=
  compile { builder := (Column.mk column []).builder, encoder := some balanceEncoder }
    (query.get Parameter.accountBalance.word)

/-- The condition of the public key parameter. -/
def publicKeyClause (column : String) (query : Query) : Traced Clause :=
  compile { builder := (Column.mk column []).builder, encoder := some publicKeyEncoder }
    (query.get Parameter.accountPublicKey.word)

end LedgerQuery
