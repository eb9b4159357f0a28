import LedgerQuery.Clause.Basic
import LedgerQuery.Sql.Identifier

/-!
# Fragments

A clause is made of fragments, one for each criterion or one for several values at once.  A fragment
builder returns the text of a fragment with the value or the list of values that it binds.  A
builder may be any function, so its result is checked: it must be a text with a value, and the text
must have one placeholder for each value.
-/

namespace LedgerQuery

/-- Makes the fragments of a clause.  The results are checked by `Fragment.ofResult`. -/
structure FragmentBuilder where
  /-- The fragment for one operator and value. -/
  build : Operator → Value → Except Fault Value
  /-- The fragment that matches any of several values. -/
  buildIn : List Value → Except Fault Value

namespace FragmentBuilder

/-- A builder that treats several values like one list of them. -/
def ofBuild (build : Operator → Value → Except Fault Value) : FragmentBuilder :=
  ⟨build, fun values => build .eq (.list values)⟩

/-- A builder from a function of the written operator and the value, with an optional function of
several values. -/
def ofFunction (fragment : String → Value → Value) (fragmentIn : Option (List Value → Value)) :
    FragmentBuilder :=
  let single := ofBuild fun operator value => .ok (fragment operator.sql value)
  match fragmentIn with
  | none => single
  | some make => { single with buildIn := fun values => .ok (make values) }

end FragmentBuilder

/-- A column that is compared against values, with operators to be replaced by others. -/
structure Column where
  name : String
  /-- The operator to render for an operator; the last entry for an operator counts. -/
  overrides : List (Operator × Operator) := []
  deriving Repr

namespace Column

/-- The operator that is rendered for an operator. -/
def rendered (column : Column) (operator : Operator) : Operator :=
  (column.overrides.reverse.lookup operator).getD operator

/-- The sign of a comparison. -/
def sign : Operator → String
  | .eq => " = "
  | .ne => " <> "
  | .lt => " < "
  | .lte => " <= "
  | .gt => " > "
  | .gte => " >= "

/-- The comparison of the column against one placeholder. -/
def comparison (column : Column) (operator : Operator) : String :=
  String.ofList (Sql.columnName column.name) ++ sign operator ++ "?"

/-- The test that the column is one of `count` placeholders. -/
def membership (column : Column) (count : Nat) : String :=
  String.ofList (Sql.columnName column.name) ++ " IN (" ++
    ", ".intercalate (List.replicate count "?") ++ ")"

/-- The fragment for an operator and a value; a list can only be compared for membership. -/
def build (column : Column) (operator : Operator) (value : Value) : Except Fault Value :=
  let operator := column.rendered operator
  match value with
  | .list items =>
    match operator with
    | .eq => .ok (.tuple [.text (column.membership items.length), value])
    | .ne => .ok (.tuple [.text ("NOT " ++ column.membership items.length), value])
    | _ => .error (.clause (.listComparison operator column.name))
  | _ => .ok (.tuple [.text (column.comparison operator), value])

/-- The builder of a column. -/
def builder (column : Column) : FragmentBuilder :=
  .ofBuild column.build

end Column

/-- A checked fragment: its text has one placeholder for each value. -/
structure Fragment where
  text : String
  values : List Value
  count_eq : Sql.countQuestions text = values.length

namespace Fragment

/-- Whether a list of values breaks the rule that only one may be bound. -/
def severalValues (single : Bool) : Value → Option Nat
  | .list items => if single && items.length != 1 then some items.length else none
  | _ => none

/-- The values that the second part of a result stands for. -/
def boundValues : Value → List Value
  | .list items => items
  | value => [value]

/-- Check a builder's result; `single` asks for exactly one value. -/
def ofResult (single : Bool) (result : Value) : Except Fault Fragment :=
  match result with
  | .tuple [.text text, value] =>
    let values := boundValues value
    match severalValues single value with
    | some count => .error (.clause (.notSingle (Text.quoted text) count))
    | none =>
      if equal : Sql.countQuestions text = values.length then .ok ⟨text, values, equal⟩
      else
        .error (.clause (.mismatch (Text.quoted text) (Sql.countQuestions text) values.length))
  | _ => do
    let shown ← result.shown
    .error (.clause (.notAPair shown))

end Fragment

end LedgerQuery
