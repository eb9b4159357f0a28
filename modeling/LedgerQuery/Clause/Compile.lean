import LedgerQuery.Clause.Fragment
import LedgerQuery.Journal.Traced
import LedgerQuery.Token

/-!
# Compiling clauses

The values of a repeated parameter become one clause: every distinct criterion gives a fragment, and
the fragments are joined by `and`.  All criteria for equality may be gathered in one fragment at the
end.
-/

namespace LedgerQuery

/-- How the values of a parameter become a clause. -/
structure ClauseRule where
  builder : FragmentBuilder
  /-- Converts a value to its bound form; without one the value is bound as it is. -/
  encoder : Option Encoder := none
  /-- Whether the criteria for equality are gathered in one fragment. -/
  gatherEq : Bool := false
  /-- The operators that the parameter accepts; without a list all are. -/
  allowed : Option (List Operator) := none
  /-- The name under which a refused operator is reported. -/
  param : Option String := none

namespace ClauseRule

/-- Whether the parameter accepts an operator. -/
def allows (rule : ClauseRule) (operator : Operator) : Bool :=
  match rule.allowed with
  | none => true
  | some operators => operators.contains operator

/-- The name in the fault of a refused criterion: the parameter, or the criterion itself. -/
def reportName (rule : ClauseRule) (criterion : Criterion) : Except Fault String :=
  match rule.param with
  | none | some "" => (Value.pair criterion.1 criterion.2).written
  | some name => .ok name

end ClauseRule

/-- The criterion that an element of a query value stands for. -/
def Criterion.ofElement : Value → Criterion
  | .pair operator value => (operator, value)
  | v =>
    let token := Token.parse v.plain
    (token.operator, .text token.value)

/-- Read an element of a query value: a pair is a criterion already, anything else is read from its
text. -/
def Criterion.read (v : Value) : Except Fault Criterion :=
  match v with
  | .pair _ _ => .ok (ofElement v)
  | _ => v.ifWritable (ofElement v)

/-- The criteria of a query value. -/
def criteria (raw : Value) : Except Fault (List Criterion) := do
  (← givenValues raw).mapM Criterion.read

/-- Add a criterion at the end unless it is there already. -/
def addNew (seen : List Criterion) (criterion : Criterion) : List Criterion :=
  if seen.any (·.same criterion) then seen else seen ++ [criterion]

/-- The distinct criteria with their values in bound form, added to those seen before.  A value
without a bound form is dropped. -/
def retain (rule : ClauseRule) (seen : List Criterion) : List Criterion → Traced (List Criterion)
  | [] => pure seen
  | criterion :: rest =>
    if rule.allows criterion.1 then do
      let encoded ← Traced.lift (encodeWith rule.encoder criterion.2)
      match encoded with
      | .null => do
        Traced.report (.valueDropped rule.param criterion.1 criterion.2)
        retain rule seen rest
      | _ => do
        let kept ← Traced.lift (Criterion.checked (criterion.1, encoded))
        retain rule (addNew seen kept) rest
    else do
      Traced.report (.operatorRejected rule.param criterion.1 criterion.2)
      let name ← Traced.lift (rule.reportName criterion)
      Traced.fail (.invalidParameter name)

/-- The fragment of one criterion. -/
def fragmentOf (rule : ClauseRule) (criterion : Criterion) : Except Fault Fragment := do
  Fragment.ofResult rule.gatherEq (← rule.builder.build criterion.1 criterion.2)

/-- The fragment of the gathered values, if there are any. -/
def gatheredFragment (rule : ClauseRule) (values : List Value) : Except Fault (List Fragment) :=
  if values.isEmpty then .ok []
  else do
    let fragment ← Fragment.ofResult false (← rule.builder.buildIn values)
    return [fragment]

/-- The criteria that get a fragment of their own. -/
def ownCriteria (rule : ClauseRule) (retained : List Criterion) : List Criterion :=
  retained.filter fun criterion => !(rule.gatherEq && criterion.1 == .eq)

/-- The values that are gathered in one fragment. -/
def gatheredValues (rule : ClauseRule) (retained : List Criterion) : List Value :=
  (retained.filter fun criterion => rule.gatherEq && criterion.1 == .eq).map Prod.snd

/-- The clause of fragments. -/
def Clause.ofFragments (fragments : List Fragment) : Clause :=
  ⟨conjunction.intercalate (fragments.map Fragment.text), fragments.flatMap Fragment.values⟩

/-- The clause of the retained criteria. -/
def assemble (rule : ClauseRule) (retained : List Criterion) : Except Fault Clause := do
  let own ← (ownCriteria rule retained).mapM (fragmentOf rule)
  let gathered ← gatheredFragment rule (gatheredValues rule retained)
  return Clause.ofFragments (own ++ gathered)

/-- Compile the values of a parameter into one clause. -/
def compile (rule : ClauseRule) (raw : Value) : Traced Clause := do
  let found ← Traced.lift (criteria raw)
  let retained ← retain rule [] found
  Traced.lift (assemble rule retained)

end LedgerQuery
