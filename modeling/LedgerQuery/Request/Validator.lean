import LedgerQuery.EntityId.Text
import LedgerQuery.Field.Balance
import LedgerQuery.Field.Integer
import LedgerQuery.Field.Slot
import LedgerQuery.Field.Timestamp
import LedgerQuery.Key.Query
import LedgerQuery.Parameter
import LedgerQuery.Token

/-!
# Validators

A validator decides whether a parameter may be given with an operator and a value.  Keys, page sizes
and directions can only be given as such; all other parameters take every operator.
-/

namespace LedgerQuery.Request

/-- A test of an operator and the text of a value. -/
abbrev Validator := Operator → String → Bool

/-- The validator that looks at the value alone. -/
def anyOperator (accepts : Value → Bool) : Validator :=
  fun _ value => accepts (.text value)

/-- The validator that takes equality alone. -/
def eqOnly (accepts : Value → Bool) : Validator :=
  fun operator value => operator == .eq && accepts (.text value)

/-- Whether a value is the word of a direction. -/
def isOrder (v : Value) : Bool :=
  (v.asText?.bind Order.ofWord?).isSome

/-- The validator of a parameter. -/
def validatorOf : Parameter → Validator
  | .accountBalance => anyOperator Field.isNumeric
  | .accountId | .contractId | .scheduleId | .spenderId | .tokenId => anyOperator EntityId.isValid
  | .accountPublicKey => eqOnly PublicKey.isValid
  | .blockNumber | .nodeId => anyOperator fun v => Field.isPositiveLong v true
  | .limit => eqOnly fun v => Field.isPositiveLong v false
  | .order => eqOnly isOrder
  | .serialNumber => anyOperator fun v => Field.isPositiveLong v false
  | .slot => anyOperator Field.isSlot
  | .timestamp => anyOperator Field.isTimestamp

/-- The validator of a key: the one given for it, or the engine's own. -/
def validatorFor? (extra : List (String × Validator)) (key : String) : Option Validator :=
  match extra.reverse.lookup key with
  | some validator => some validator
  | none => (Parameter.ofWord? key).map validatorOf

end LedgerQuery.Request
