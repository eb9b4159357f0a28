import LedgerQuery.Fault.Basic

/-!
# Entity ids

An entity is named by a shard, a realm and a number.  The three fit into ten, sixteen and
thirty-eight bits, so an id is also one number of sixty-four bits with the shard on top.
-/

namespace LedgerQuery

/-- The name of an entity. -/
structure EntityId where
  shard : Nat
  realm : Nat
  num : Nat
  shard_lt : shard < 1 <<< 10
  realm_lt : realm < 1 <<< 16
  num_lt : num < 1 <<< 38
  deriving DecidableEq, Repr

namespace EntityId

/-- The id of three components, if each fits its bits. -/
def make? (shard realm num : Int) : Option EntityId :=
  if fits : (0 ≤ shard ∧ shard < (1 <<< 10 : Nat)) ∧ (0 ≤ realm ∧ realm < (1 <<< 16 : Nat)) ∧
      (0 ≤ num ∧ num < (1 <<< 38 : Nat)) then
    some ⟨shard.toNat, realm.toNat, num.toNat, by omega, by omega, by omega⟩
  else none

/-- The id of three components; a component out of range is a fault.  The fault names all three, so
they have to be numbers that can be written. -/
def make (shard realm num : Int) : Except Fault EntityId :=
  match make? shard realm num with
  | some id => .ok id
  | none =>
    if [shard, realm, num].all Numeral.isWritable then
      .error (.argument (.entityRange shard realm num))
    else .error (.unreadable .writeLimit)

/-- The id as one number: shard, realm and number from the top down. -/
def encoded (id : EntityId) : Nat :=
  (id.shard <<< 54) + (id.realm <<< 38) + id.num

/-- The id of an encoded number.  A number that is negative or too large has no shard. -/
def ofEncoded (n : Int) : Except Fault EntityId :=
  make (n / (1 <<< 54 : Nat)) (n / (1 <<< 38 : Nat) % (1 <<< 16 : Nat)) (n % (1 <<< 38 : Nat))

/-- The id in `shard.realm.num` notation. -/
def text (id : EntityId) : String :=
  Numeral.write id.shard ++ "." ++ Numeral.write id.realm ++ "." ++ Numeral.write id.num

/-- The id as it is shown inside a message. -/
def shown (id : EntityId) : String :=
  "EntityId(" ++ id.text ++ ")"

end EntityId

end LedgerQuery
