import LedgerQuery.Timestamp.Filter

/-!
# Conditions on a range column

A row may be valid for a range of timestamps.  A filter then becomes a test between the row's range
and an interval: bounds and equality ask for an overlap with everything on one side of the value,
and an exclusion asks that the row's range does not hold the value.
-/

namespace LedgerQuery.Timestamp

/-- The query key of timestamps. -/
def timestampKey : String := "timestamp"

/-- Conditions with placeholders and the intervals bound to them. -/
structure RangeConditions where
  conditions : List String
  params : List Interval
  deriving Repr

/-- The condition of a filter on a range column. -/
def rangeCondition (column : String) : Operator → String
  | .ne => "not " ++ column ++ " @> ?"
  | _ => column ++ " && ?"

/-- The interval of a filter; equality stands for everything up to the value. -/
def rangeParam (value : Value) : Operator → Interval
  | .ne => .closed value value
  | .eq | .lte => .make .null value false true false
  | .lt => .make .null value false false false
  | .gt => .make value .null false false false
  | .gte => .make value .null true false false

/-- The filters on the timestamp as conditions on a range column; other filters are left out. -/
def rangeConditions (column : String) : List Filter → Traced RangeConditions
  | [] => pure ⟨[], []⟩
  | f :: rest =>
    if f.key = timestampKey then do
      let operator ← f.checkedOperator
      let more ← rangeConditions column rest
      return ⟨rangeCondition column operator :: more.conditions,
        rangeParam f.value operator :: more.params⟩
    else rangeConditions column rest

end LedgerQuery.Timestamp
