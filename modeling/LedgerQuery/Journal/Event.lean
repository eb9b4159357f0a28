import LedgerQuery.Value.Basic

/-!
# Events

While it works the engine reports what it rejects, what it drops, and where paging ends.  An event
says what happened; its message, a template with arguments, and its named fields follow from that.
-/

namespace LedgerQuery

/-- The kind of an event. -/
inductive EventKind where
  | operatorRejected
  | valueDropped
  | requestRejected
  | timestampRejected
  | cursorExhausted
  | cursorUncomparable
  deriving DecidableEq, Repr

namespace EventKind

/-- The kinds in their canonical order. -/
def all : List EventKind :=
  [operatorRejected, valueDropped, requestRejected, timestampRejected, cursorExhausted,
    cursorUncomparable]

/-- The word of a kind. -/
def word : EventKind → String
  | operatorRejected => "operator_rejected"
  | valueDropped => "value_dropped"
  | requestRejected => "request_rejected"
  | timestampRejected => "timestamp_rejected"
  | cursorExhausted => "cursor_exhausted"
  | cursorUncomparable => "cursor_uncomparable"

/-- The name of a kind, in capitals. -/
def name : EventKind → String
  | operatorRejected => "OPERATOR_REJECTED"
  | valueDropped => "VALUE_DROPPED"
  | requestRejected => "REQUEST_REJECTED"
  | timestampRejected => "TIMESTAMP_REJECTED"
  | cursorExhausted => "CURSOR_EXHAUSTED"
  | cursorUncomparable => "CURSOR_UNCOMPARABLE"

/-- The kind of a word. -/
def ofWord? (s : String) : Option EventKind :=
  all.find? fun kind => kind.word == s

end EventKind

/-- Something worth reporting. -/
inductive Event where
  /-- An operator that the parameter does not allow. -/
  | operatorRejected (key : Option String) (operator : Operator) (value : Value)
  /-- A value that its codec cannot use. -/
  | valueDropped (key : Option String) (operator : Operator) (value : Value)
  /-- A request with unusable parameters. -/
  | requestRejected (params : List String)
  /-- Timestamp filters that do not go together. -/
  | filtersRejected (cause : RangeFault)
  /-- A malformed timestamp filter. -/
  | filterRejected (key operator : String) (value : Value) (cause : RangeFault)
  /-- A sort key whose bounds leave nothing to fetch. -/
  | cursorExhausted (key : String) (operator : Operator) (bound : Value)
  /-- A sort key whose bounds cannot be compared. -/
  | cursorUncomparable (key : String) (bound : Value) (error : Fault)
  deriving Repr

namespace Event

/-- The kind of an event. -/
def kind : Event → EventKind
  | operatorRejected _ _ _ => .operatorRejected
  | valueDropped _ _ _ => .valueDropped
  | requestRejected _ => .requestRejected
  | filtersRejected _ | filterRejected _ _ _ _ => .timestampRejected
  | cursorExhausted _ _ _ => .cursorExhausted
  | cursorUncomparable _ _ _ => .cursorUncomparable

/-- The logger of the part that reports the event. -/
def logger : Event → String
  | operatorRejected _ _ _ | valueDropped _ _ _ => "mirrorql.core.clause"
  | requestRejected _ => "mirrorql.core.request"
  | filtersRejected _ | filterRejected _ _ _ _ => "mirrorql.core.ranges"
  | cursorExhausted _ _ _ | cursorUncomparable _ _ _ => "mirrorql.core.cursor"

/-- An optional name as a value. -/
def nameValue : Option String → Value
  | some name => .text name
  | none => .null

/-- The template of the message of an event. -/
def template : Event → String
  | operatorRejected _ _ _ => "Operator %s not allowed for %s"
  | valueDropped _ _ _ => "Dropped unparsable value %r"
  | requestRejected _ => "Rejected request parameters: %s"
  | filtersRejected _ => "Rejected timestamp filters: %s"
  | filterRejected _ _ _ _ => "Rejected timestamp filter: %s"
  | cursorExhausted _ _ _ => "No next page: %s exhausted at %s"
  | cursorUncomparable _ _ _ => "Cannot compare cursor bounds of %s: %s"

/-- The arguments of the message of an event. -/
def args : Event → List Value
  | operatorRejected key operator _ => [.operator operator, nameValue key]
  | valueDropped _ _ value => [value]
  | requestRejected params => [.list (params.map .text)]
  | filtersRejected cause | filterRejected _ _ _ cause => [.text cause.message]
  | cursorExhausted key _ bound => [.text key, bound]
  | cursorUncomparable key _ error => [.text key, .text error.message]

/-- The fields of an event, its kind apart. -/
def details : Event → List (String × Value)
  | operatorRejected key operator value | valueDropped key operator value =>
    [("key", nameValue key), ("operator", .operator operator), ("value", value)]
  | requestRejected params => [("params", .list (params.map .text))]
  | filtersRejected cause => [("key", .text "timestamp"), ("reason", .text cause.message)]
  | filterRejected key operator value cause =>
    [("key", .text key), ("operator", .text operator), ("value", value),
      ("reason", .text cause.message)]
  | cursorExhausted key operator bound =>
    [("key", .text key), ("operator", .operator operator), ("bound", bound)]
  | cursorUncomparable key bound error =>
    [("key", .text key), ("bound", bound), ("error", .text error.message)]

end Event

end LedgerQuery
