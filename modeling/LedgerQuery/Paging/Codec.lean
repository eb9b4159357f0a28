import LedgerQuery.EntityId.Text
import LedgerQuery.Field.Slot
import LedgerQuery.Field.Timestamp
import LedgerQuery.Parameter
import LedgerQuery.Token

/-!
# Codecs of sort keys

To compare the bounds of a sort key its values are converted to numbers.  The engine knows how for
ids, counters, slots and timestamps; other keys are not compared.
-/

namespace LedgerQuery.Paging

/-- The encoded number of an entity id. -/
def entityCodec : Encoder :=
  fun v => (EntityId.parse .standard none v).map fun id => .int id.encoded

/-- The whole number of a value. -/
def integerCodec : Encoder :=
  fun v => v.toInt.map .int

/-- The number of a slot. -/
def slotCodec : Encoder :=
  fun v => do
    let text ← v.written
    return .int (← Field.slotValue (.text text))

/-- Nanoseconds; a number stands for itself. -/
def timestampCodec : Encoder :=
  fun v =>
    match v with
    | .int _ | .bool _ => .ok v
    | _ => do
      let text ← v.written
      match Field.timestampOfText? text with
      | some n => .ok (.int n)
      | none => .error (.unreadable (.timestamp v.quoted))

/-- The codec of a parameter that is a sort key. -/
def codecOf? : Parameter → Option Encoder
  | .accountId | .contractId | .scheduleId | .spenderId | .tokenId => some entityCodec
  | .blockNumber | .nodeId | .serialNumber => some integerCodec
  | .slot => some slotCodec
  | .timestamp => some timestampCodec
  | _ => none

/-- The codec of a key: the one given for it, or the engine's own. -/
def codecFor? (extra : List (String × Encoder)) (key : String) : Option Encoder :=
  match extra.reverse.lookup key with
  | some codec => some codec
  | none => (Parameter.ofWord? key).bind codecOf?

end LedgerQuery.Paging
