import LedgerQuery.Journal.Traced
import LedgerQuery.Query
import LedgerQuery.Request.Validator

/-!
# Request validation

All parameters of a request are checked before any of them is used.  A parameter has at most one
problem: it is unknown, else repeated too often, else one of its values is refused.  The problems of
all parameters are reported together.
-/

namespace LedgerQuery.Request

/-- Whether a number of values is allowed for one parameter. -/
def isAllowedCount (config : Config) (count : Nat) : Bool :=
  decide ((count : Int) ≤ config.maxRepeated)

/-- Whether a validator accepts a token. -/
def acceptsToken (validator : Validator) (s : String) : Bool :=
  let token := Token.parse s
  validator token.operator token.value

/-- The problem of a parameter that is repeated too often.  It names the limit, which has to be a
number that can be written. -/
def tooMany (config : Config) (key : String) (count : Nat) : Except Fault Problem :=
  (Value.int config.maxRepeated).ifWritable (.tooMany key count config.maxRepeated)

/-- What is wrong with the values of a known parameter. -/
def valuesProblem? (config : Config) (validators : List (String × Validator)) (key : String)
    (values : List String) : Except Fault (Option Problem) :=
  if !isAllowedCount config values.length then
    (tooMany config key values.length).map some
  else
    match validatorFor? validators key with
    | none => .ok none
    | some validator =>
      if values.all (acceptsToken validator) then .ok none else .ok (some (.invalid key))

/-- What is wrong with one parameter. -/
def problem? (config : Config) (accepted : List String) (validators : List (String × Validator))
    (entry : String × Value) : Except Fault (Option Problem) :=
  if accepted.contains entry.1 then
    valueTexts entry.2 >>= valuesProblem? config validators entry.1
  else .ok (some (.unknown entry.1))

/-- The problems of a request, in the order of its parameters. -/
def problems (config : Config) (accepted : List String) (validators : List (String × Validator))
    (query : Query) : Except Fault (List Problem) :=
  (query.mapM (problem? config accepted validators)).map fun found => found.filterMap id

/-- Check a request; the problems of all its parameters make up one fault. -/
def validate (config : Config) (accepted : List String) (validators : List (String × Validator))
    (query : Query) : Traced Unit := do
  let found ← Traced.lift (problems config accepted validators query)
  if found.isEmpty then return ()
  else do
    Traced.report (.requestRejected (found.map Problem.key))
    Traced.fail (.argument (.problems found))

end LedgerQuery.Request
