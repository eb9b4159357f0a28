import LedgerQuery.Value.Basic

/-!
# Errors as their receivers see them

The engine's errors form a small family: the general error, refused arguments, refused ranges among
them, and broken clauses.  An error has a detail, further texts, and for refused arguments the
parameters concerned with one message each.
-/

namespace LedgerQuery

/-- A member of the family of errors. -/
inductive ErrorClass where
  | general
  | argument
  | clause
  | range
  deriving DecidableEq, Repr

namespace ErrorClass

/-- The family from the general to the special. -/
def all : List ErrorClass :=
  [general, argument, clause, range]

/-- The name of a class. -/
def name : ErrorClass → String
  | general => "MirrorQLError"
  | argument => "InvalidArgumentError"
  | clause => "InvalidClauseError"
  | range => "InvalidRangeError"

/-- The class of a name. -/
def ofName? (s : String) : Option ErrorClass :=
  all.find? fun c => c.name == s

/-- Whether every error of a class is one of another. -/
def isKindOf (c d : ErrorClass) : Bool :=
  c == d || d == general || (c == range && d == argument)

/-- The classes that an error of a class belongs to. -/
def lineage (c : ErrorClass) : List ErrorClass :=
  all.filter c.isKindOf

/-- Whether errors of a class name parameters. -/
def namesParams (c : ErrorClass) : Bool :=
  c.isKindOf argument

end ErrorClass

/-- What an error is made of. -/
structure Notice where
  errorClass : ErrorClass
  /-- The name that the error goes by: its class or a special form of it. -/
  title : String
  /-- The texts besides the detail. -/
  extra : List String
  detail : String
  params : List Value
  messages : List Value
  deriving Repr

namespace Notice

/-- Make an error from values: those that are empty do not count, and without a detail of its own
the first text is the detail, or else the one that the special form has. -/
def make (c : ErrorClass) (special : Option String) (texts : List Value) (detail : String)
    (params messages : List Value) : Notice :=
  let title := if special.isSome then "Sub" else c.name
  let texts := (texts.filter Value.truthy).map Value.plain
  if detail.isEmpty then
    match texts with
    | first :: rest => ⟨c, title, rest, first, params, messages⟩
    | [] => ⟨c, title, [], special.getD "", params, messages⟩
  else ⟨c, title, texts, detail, params, messages⟩

/-- The messages put together. -/
def joined (messages : List Value) : Except Fault String :=
  if messages.isEmpty then .ok "Invalid argument."
  else do
    let texts ← messages.mapM fun m =>
      match m.asText? with
      | some s => Except.ok s
      | none => .error Fault.mistyped
    return "; ".intercalate texts

/-- The elements of an optional collection; an empty one does not count. -/
def collected (v : Value) : Except Fault (List Value) :=
  if v.truthy then v.elements else .ok []

/-- An error about arguments: without messages the message itself is one, and without a message it
is made from the messages. -/
def ofArguments (c : ErrorClass) (special : Option String) (message params messages : Value) :
    Except Fault Notice := do
  let params ← collected params
  let messages ←
    if messages.truthy then messages.elements
    else .ok (if message.truthy then [message] else [])
  let message ← match message with
    | .null => (joined messages).map Value.text
    | _ => .ok message
  return make c special [message] "" params messages

/-- An error about a clause. -/
def ofClause (special : Option String) (message : Value) : Notice :=
  let message := match message with
    | .null => .text "Invalid clause produced by fragment builder."
    | _ => message
  make .clause special [message] "" [] []

/-- An error about named parameters: one name, or a collection of them.  Only some classes have
parameters. -/
def ofNames (c : ErrorClass) (special : Option String) (problem : String → Problem)
    (names : Value) : Except Fault Notice := do
  if !c.namesParams then throw .unsupported
  let names ← if names.asText?.isSome then .ok [names] else names.elements
  ofArguments c special .null (.list names)
    (.list (names.map fun name => .text (problem name.plain).message))

/-- The text of an error: its further texts and its detail, without blanks at the ends. -/
def text (n : Notice) : String :=
  Text.trim (" ".intercalate (n.extra ++ [n.detail]))

/-- An error as it is shown inside a message. -/
def shown (n : Notice) : String :=
  if n.detail.isEmpty then n.title else n.title ++ " - " ++ n.detail

end Notice

/-- The text of an exception of a class inside a record. -/
def exceptionText (className text : String) : String :=
  let (title, text) := match ErrorClass.ofName? className with
    | some c => ("mirrorql.exceptions." ++ c.name, Text.trim text)
    | none => (className, if className = "KeyError" then Text.quoted text else text)
  if text.isEmpty then title else title ++ ": " ++ text

end LedgerQuery
