import LedgerQuery.Journal.Traced
import LedgerQuery.Link.Basic
import LedgerQuery.Paging.Codec
import LedgerQuery.Query

/-!
# Links to the next page

The next page is asked for by the same query with a new bound on every sort key, just past the last
row of the page.  Bounds in the direction of the scan are replaced by the new one; bounds at the
other end and exclusions are kept.  A key that is fixed by an equality stays as it is.

There is no next page when the new bound and the kept bounds of a comparable key leave nothing
between them.  A value that cannot be compared leaves the link standing.
-/

namespace LedgerQuery.Paging

open Link (Tokens)

/-- The sort key value of the last row. -/
structure LastValue where
  value : Value
  /-- Whether the next page begins with the value itself. -/
  inclusive : Bool
  deriving Repr

/-- Read the last value of a sort key: plain, with its marks, or as a mapping. -/
def LastValue.ofValue : Value → Except Fault LastValue
  | .cursor v inclusive _ => .ok ⟨v, inclusive⟩
  | .map entries =>
    match entries.lookup "value" with
    | some v => .ok ⟨v, ((entries.lookup "inclusive").map Value.truthy).getD false⟩
    | none => .error (.missing "value")
  | v => .ok ⟨v, false⟩

/-- The operator of the new bound. -/
def boundOperator (order : Order) (inclusive : Bool) : Operator :=
  match order, inclusive with
  | .asc, true => .gte
  | .asc, false => .gt
  | .desc, true => .lte
  | .desc, false => .lt

/-- Whether an operator bounds in the direction of the scan. -/
def isScanBound (order : Order) (operator : Operator) : Bool :=
  match order with
  | .asc => operator.isLower
  | .desc => operator.isUpper

/-- Whether an operator bounds the end that the scan runs to. -/
def isEndBound (order : Order) (operator : Operator) : Bool :=
  match order with
  | .asc => operator.isUpper
  | .desc => operator.isLower

/-- A bound as a closed one: strict bounds move by one. -/
def closedBound (operator : Operator) (v : Value) : Except Fault Value :=
  match operator with
  | .gt => v.shift 1
  | .lt => v.shift (-1)
  | _ => .ok v

/-- Whether nothing lies between the first row to come and the bound at the end. -/
def passes (order : Order) (boundary limit : Value) : Except Fault Bool :=
  match order with
  | .asc => limit.less boundary
  | .desc => boundary.less limit

/-- Whether one of the tokens bounds the end before the first row to come.  Every token's value is
converted, also one that does not bound the end. -/
def exhaustedBy (order : Order) (codec : Encoder) (boundary : Value) :
    List String → Except Fault Bool
  | [] => .ok false
  | s :: rest => do
    let token := Token.parse s
    let limit ← codec (.text token.value)
    if isEndBound order token.operator then do
      if ← passes order boundary (← closedBound token.operator limit) then return true
      else exhaustedBy order codec boundary rest
    else exhaustedBy order codec boundary rest

/-- Whether the new bound and the kept tokens leave nothing. -/
def exhausted (order : Order) (codec : Encoder) (operator : Operator) (last : Value)
    (kept : List String) : Except Fault Bool := do
  let boundary ← closedBound operator (← codec last)
  exhaustedBy order codec boundary kept

/-- Whether a fault means that a value cannot be compared. -/
def isUncomparable : Fault → Bool
  | .argument _ | .range _ | .unreadable _ | .notAscii => true
  | _ => false

/-- Whether a sort key has nothing left; values that cannot be compared are reported and count as
something left. -/
def checkExhausted (order : Order) (codec : Option Encoder) (key : String) (operator : Operator)
    (last : Value) (kept : List String) : Traced Bool :=
  match codec with
  | none => pure false
  | some codec =>
    match exhausted order codec operator last kept with
    | .ok answer => pure answer
    | .error fault =>
      if isUncomparable fault then do
        Traced.report (.cursorUncomparable key last fault)
        return false
      else Traced.fail fault

/-- The tokens of a key. -/
def tokensOf (tokens : Tokens) (key : String) : List String :=
  (tokens.lookup key).getD []

/-- Give a key other tokens in its place; a new key comes last. -/
def replaceTokens (tokens : Tokens) (key : String) (values : List String) : Tokens :=
  match tokens with
  | [] => [(key, values)]
  | entry :: rest =>
    if entry.1 = key then (key, values) :: rest else entry :: replaceTokens rest key values

/-- Add the new bound of a key behind the tokens kept; a key that keeps none moves to the end. -/
def addBound (tokens : Tokens) (key : String) (kept : List String) (bound : String) : Tokens :=
  if kept.isEmpty then (tokens.filter fun entry => entry.1 != key) ++ [(key, [bound])]
  else replaceTokens tokens key (kept ++ [bound])

/-- Whether a token fixes its key. -/
def isFixed (s : String) : Bool :=
  (Token.parse s).operator == .eq

/-- The tokens that stay beside a new bound. -/
def keptTokens (order : Order) (tokens : List String) : List String :=
  tokens.filter fun s => !isScanBound order (Token.parse s).operator

/-- The text of a new bound. -/
def boundText (operator : Operator) (last : Value) : String :=
  operator.word ++ ":" ++ last.plain

/-- The token of a new bound, if its value can be written. -/
def boundToken (operator : Operator) (last : Value) : Except Fault String :=
  last.ifWritable (boundText operator last)

/-- Move the query past the last value of one sort key; none where nothing is left. -/
def advanceKey (order : Order) (codecs : List (String × Encoder)) (tokens : Tokens)
    (key : String) (last : Value) : Traced (Option Tokens) := do
  let last ← Traced.lift (LastValue.ofValue last)
  let current := tokensOf tokens key
  if current.any isFixed then return some tokens
  else do
    let operator := boundOperator order last.inclusive
    let kept := keptTokens order current
    if ← checkExhausted order (codecFor? codecs key) key operator last.value kept then do
      Traced.report (.cursorExhausted key operator last.value)
      return none
    else do
      let bound ← Traced.lift (boundToken operator last.value)
      return some (addBound tokens key kept bound)

/-- Move the query past the last values of all sort keys. -/
def advance (order : Order) (codecs : List (String × Encoder)) (tokens : Tokens) :
    Query → Traced (Option Tokens)
  | [] => pure (some tokens)
  | (key, last) :: rest => do
    match ← advanceKey order codecs tokens key last with
    | none => return none
    | some tokens => advance order codecs tokens rest

/-- The link of tokens; none without any. -/
def linkOf (tokens : Tokens) : Option String :=
  let pairs := Link.pairs tokens
  if pairs.isEmpty then none else some (Link.write pairs)

/-- The link to the next page; none when there is nothing to link to or nothing left to fetch. -/
def nextLink (order : Value) (query last : Query) (codecs : List (String × Encoder)) :
    Traced (Option String) := do
  let order ← Traced.lift (Order.ofValue order)
  let tokens ← Traced.lift query.texts
  return (← advance order codecs tokens last).bind linkOf

/-- The query that a link asks for. -/
def queryOfLink (link : String) : Query :=
  .ofTexts (Link.read link)

/-- The links from page to page, given the last values of each.  The list ends with the first page
that has no next one or fails. -/
def paginate (order : Value) (codecs : List (String × Encoder)) (query : Query) :
    List Query → Traced (List (Except Fault (Option String)))
  | [] => pure []
  | last :: rest => do
    match ← (nextLink order query last codecs).attempt with
    | .error fault => return [.error fault]
    | .ok none => return [.ok none]
    | .ok (some link) => return .ok (some link) :: (← paginate order codecs (queryOfLink link) rest)

end LedgerQuery.Paging
