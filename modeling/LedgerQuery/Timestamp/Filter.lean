import LedgerQuery.Config
import LedgerQuery.Interval
import LedgerQuery.Journal.Traced
import LedgerQuery.Numeral.Rounded

/-!
# Timestamp filters

Repeated filters on the timestamp are merged into one closed interval of nanoseconds and the sets of
the values that must and must not match.  A strict bound becomes a closed one by a step of one
nanosecond, and the tightest bound on each side counts.

Strict checking allows one kind of query only: a range with a bound of each direction at most once,
equalities, or exclusions where they are allowed at all.
-/

namespace LedgerQuery.Timestamp

/-- A filter of a query before its operator and value are checked. -/
structure Filter where
  key : String
  operator : String
  value : Value
  deriving Repr

namespace Filter

/-- End with a range fault after reporting the malformed filter. -/
def reject {α : Type} (f : Filter) (cause : RangeFault) : Traced α := do
  Traced.report (.filterRejected f.key f.operator f.value cause)
  Traced.fail (.range cause)

/-- The operator of a filter. -/
def checkedOperator (f : Filter) : Traced Operator :=
  match Operator.ofWord? f.operator with
  | some operator => pure operator
  | none => f.reject (.unknownOperator (Text.quoted f.operator))

/-- The nanoseconds of a filter.  A number too large to have a whole part is a fault of its own, and
so is a malformed value that cannot be shown. -/
def checkedValue (f : Filter) : Traced Int :=
  match f.value.toInt with
  | .ok n => pure n
  | .error .overflow => Traced.fail .overflow
  | .error _ => do
    let shown ← Traced.lift f.value.shown
    f.reject (.unreadableValue shown)

end Filter

/-- A filter that has been checked. -/
abbrev Condition := Operator × Int

/-- Check filters one after the other. -/
def conditions : List Filter → Traced (List Condition)
  | [] => pure []
  | f :: rest => do
    let operator ← f.checkedOperator
    let value ← f.checkedValue
    let more ← conditions rest
    return (operator, value) :: more

/-- How filters are merged. -/
structure Options where
  /-- Whether there must be a filter. -/
  required : Bool := true
  /-- Whether exclusions are allowed under strict checking. -/
  allowNe : Bool := false
  /-- Whether a range may be bounded on one side only. -/
  allowOpenRange : Bool := false
  /-- Strict checking; without a choice the configuration decides. -/
  strict : Option Bool := none
  /-- Whether inverted ranges and ranges that are too wide are refused. -/
  validateRange : Bool := true
  config : Config := .standard
  deriving Repr

/-- Whether checking is strict. -/
def Options.isStrict (options : Options) : Bool :=
  options.strict.getD options.config.strictTimestamp

/-- What filters come to. -/
structure Merged where
  /-- The interval of the bounds; none where no filter gives a bound. -/
  range : Option Interval
  /-- The values to match, in increasing order. -/
  eqs : List Int
  /-- The values not to match, in increasing order. -/
  nes : List Int
  deriving Repr

/-- The values of the conditions with one operator. -/
def valuesOf (operator : Operator) (cs : List Condition) : List Int :=
  (cs.filter fun c => c.1 == operator).map Prod.snd

/-- Insert a number into an increasing list, unless it is there. -/
def insertNew (n : Int) : List Int → List Int
  | [] => [n]
  | m :: ms => if n < m then n :: m :: ms else if n = m then m :: ms else m :: insertNew n ms

/-- The distinct numbers of a list in increasing order. -/
def sortedDistinct (ns : List Int) : List Int :=
  ns.foldr insertNew []

/-- The least number that a condition on the lower side admits. -/
def lowerBound? : Condition → Option Int
  | (.gt, n) => some (n + 1)
  | (.gte, n) => some n
  | _ => none

/-- The greatest number that a condition on the upper side admits. -/
def upperBound? : Condition → Option Int
  | (.lt, n) => some (n - 1)
  | (.lte, n) => some n
  | _ => none

/-- What strict checking finds wrong with conditions. -/
def strictFault? (allowNe : Bool) (cs : List Condition) : Option RangeFault :=
  let lowers := cs.filterMap lowerBound?
  let uppers := cs.filterMap upperBound?
  let eqs := valuesOf .eq cs
  let nes := valuesOf .ne cs
  if !nes.isEmpty && !allowNe then some .exclusionUnsupported
  else if 1 < lowers.length then some .repeatedLower
  else if 1 < uppers.length then some .repeatedUpper
  else if !eqs.isEmpty && !(lowers.isEmpty && uppers.isEmpty && nes.isEmpty) then
    some .mixedEquality
  else none

/-- Days are given to six significant digits. -/
def daysRounding : Numeral.Rounding where
  form := .general

/-- The length of a span of nanoseconds in days. -/
def daysText (span : Int) : Except Fault String :=
  match Numeral.Binary64.quotient? span oneDay with
  | some days => .ok (daysRounding.text days)
  | none => .error .overflow

/-- The interval between the tightest bounds. -/
def rangeOf (validate : Bool) (widest : Int) : Option Int → Option Int → Except Fault Interval
  | none, none => .ok (.make .null .null false true false)
  | none, some high => .ok (.make .null (.int high) false true false)
  | some low, none => .ok (.make (.int low) .null true false false)
  | some low, some high =>
    if high < low then
      if validate then .error (.range .inverted) else .ok .none
    else if validate && decide (widest < high - low + 1) then do
      let days ← daysText widest
      .error (.range (.tooWide days))
    else .ok (.closed (.int low) (.int high))

/-- The range of conditions: none where no condition gives a bound. -/
def mergedRange (options : Options) (cs : List Condition) : Except Fault (Option Interval) :=
  let lowers := cs.filterMap lowerBound?
  let uppers := cs.filterMap upperBound?
  if lowers.isEmpty && uppers.isEmpty then .ok none
  else if (lowers.isEmpty || uppers.isEmpty) && !options.allowOpenRange then
    .error (.range .halfOpen)
  else
    (rangeOf options.validateRange options.config.maxTimestampRange lowers.max? uppers.min?).map
      some

/-- Refuse conditions that do not go together. -/
def checkStrict (options : Options) (cs : List Condition) : Traced Unit :=
  if options.isStrict then
    match strictFault? options.allowNe cs with
    | some cause => do
      Traced.report (.filtersRejected cause)
      Traced.fail (.range cause)
    | none => pure ()
  else pure ()

/-- Merge timestamp filters. -/
def merge (options : Options) (filters : List Filter) : Traced Merged :=
  if filters.isEmpty then
    if options.required then Traced.fail (.range .noFilter) else pure ⟨none, [], []⟩
  else do
    let cs ← conditions filters
    checkStrict options cs
    let range ← Traced.lift (mergedRange options cs)
    return ⟨range, sortedDistinct (valuesOf .eq cs), sortedDistinct (valuesOf .ne cs)⟩

end LedgerQuery.Timestamp
