import LedgerQuery.Journal.Event
import LedgerQuery.Json.Text
import LedgerQuery.Text.Filling

/-!
# Log records

A record says where and how severe something is, in words and in named fields.  It is written either
as one JSON object or as a line of text with the fields behind it.  The id of the request being
served is added to both.
-/

namespace LedgerQuery

/-- A log record. -/
structure Record where
  logger : String
  level : String
  /-- The message, a template where there are arguments. -/
  message : String
  args : List Value := []
  function : Value := .null
  line : Value := .null
  fields : List (String × Value) := []
  /-- The text of an exception. -/
  exception : Option String := none
  /-- The id that was put on the record itself. -/
  requestId : Option String := none
  /-- The time of the record, as it is written. -/
  time : String := "T"
  deriving Repr

namespace Record

/-- A text that is there and not empty. -/
def present : Option String → Option String
  | some "" => none
  | s => s

/-- Set the value of a name: in its place, or at the end when it is new. -/
def setMember (members : List (String × Value)) (name : String) (v : Value) :
    List (String × Value) :=
  match members with
  | [] => [(name, v)]
  | entry :: rest => if entry.1 = name then (name, v) :: rest else entry :: setMember rest name v

/-- Set the values of several names, one after the other. -/
def setMembers (members fields : List (String × Value)) : List (String × Value) :=
  fields.foldl (fun members entry => setMember members entry.1 entry.2) members

/-- The message with its arguments. -/
def text (r : Record) : Except Fault String :=
  Text.fillMessage r.message r.args

/-- The members that every record has; the request being served is named when there is one. -/
def baseMembers (current : Option String) (message : String) (r : Record) :
    List (String × Value) :=
  [("timestamp", .text r.time), ("level", .text r.level), ("logger", .text r.logger),
    ("message", .text message), ("function", r.function), ("line", r.line)] ++
    ((present current).map fun id => ("request_id", Value.text id)).toList

/-- The members of the JSON form: the fields come over the base members, an exception over both. -/
def members (current : Option String) (r : Record) : Except Fault (List (String × Value)) := do
  let message ← r.text
  let all := setMembers (baseMembers current message r) r.fields
  return match r.exception with
    | some e => setMember all "exception" (.text e)
    | none => all

/-- The record as one JSON object. -/
def json (current : Option String) (r : Record) : Except Fault String :=
  (r.members current).map fun members => Json.text (.map members)

/-- The layout of a text line. -/
def lineTemplate : String :=
  "%(asctime)s - %(name)s - %(levelname)s - %(message)s"

/-- The values that the layout of a line may name. -/
def lineValues (message : String) (r : Record) : List (String × Value) :=
  [("asctime", .text r.time), ("name", .text r.logger), ("levelname", .text r.level),
    ("message", .text message)] ++
    (r.requestId.map fun id => ("request_id", Value.text id)).toList

/-- Fill in the layout of a line; a value that the record lacks makes it unusable. -/
def fillLine (template : String) (values : List (String × Value)) : Except Fault String :=
  match Text.fill template ⟨[.map values], some values⟩ with
  | .error (.missing _) => .error (.unreadable .template)
  | filled => filled

/-- A text with another one on a new line. -/
def onNewLine (s t : String) : String :=
  if s.toList.getLast? = some '\n' then s ++ t else s ++ "\n" ++ t

/-- The fields behind a line, the request being served first. -/
def lineFields (current : Option String) (r : Record) : List (String × Value) :=
  setMembers ((present current).map fun id => ("request_id", Value.text id)).toList r.fields

/-- The record as text in a layout.  A layout that names no value is unusable. -/
def lineText (template : String) (current : Option String) (r : Record) : Except Fault String := do
  let template := if template.isEmpty then "%(message)s" else template
  if !Text.takesName template.toList then throw (.unreadable .template)
  let message ← r.text
  let line ← fillLine template (lineValues message r)
  let line := match r.exception with
    | some e => onNewLine line e
    | none => line
  let fields := lineFields current r
  if fields.isEmpty then return line
  else do
    let shown ← fields.mapM fun field => do return field.1 ++ "=" ++ (← field.2.written)
    return line ++ " [" ++ " ".intercalate shown ++ "]"

/-- The record of an event. -/
def ofEvent (e : Event) : Record where
  logger := e.logger
  level := "DEBUG"
  message := e.template
  args := e.args
  fields := ("event", .text e.kind.word) :: e.details

end Record

end LedgerQuery
