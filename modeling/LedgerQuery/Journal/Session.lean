import LedgerQuery.Journal.Record

/-!
# Logging sessions

A session holds what decides where records go: the level and the handlers of the root logger, the id
of the request being served, and the loggers that put this id on their records.  Nothing is written
before the session is configured, and events are written at the lowest named level only.
-/

namespace LedgerQuery

/-- How the console writes records. -/
inductive ConsoleStyle where
  | structured
  | keyValue
  deriving DecidableEq, Repr

namespace ConsoleStyle

/-- The style of a name; every name but one asks for text. -/
def ofName (s : String) : ConsoleStyle :=
  if s = "structured" then structured else keyValue

/-- The name of the formatter of a style. -/
def formatter : ConsoleStyle → String
  | structured => "StructuredFormatter"
  | keyValue => "KeyValueFormatter"

end ConsoleStyle

/-- The state of logging. -/
structure Session where
  /-- The level of the root logger; none before it is configured. -/
  level : Option Nat := none
  /-- The style of the console; none before the session is configured. -/
  console : Option ConsoleStyle := none
  /-- Whether there is a second handler. -/
  extra : Bool := false
  /-- The request being served. -/
  requestId : Option String := none
  /-- The loggers that put the request id on their records. -/
  filtered : List String := ["mirrorql.core.clause", "mirrorql.core.cursor", "mirrorql.core.ranges",
    "mirrorql.core.request"]
  deriving Repr

/-- What the console has written. -/
inductive ConsoleLine where
  | text (line : String)
  | members (members : List (String × Value))
  deriving Repr

/-- What the second handler has seen of a record. -/
structure Sighting where
  level : String
  logger : String
  message : String
  requestId : Option String
  deriving Repr

/-- What becomes of a record. -/
structure Output where
  lines : List ConsoleLine := []
  sightings : List Sighting := []
  /-- The fault of a record that the second handler cannot read. -/
  fault : Option Fault := none
  deriving Repr

namespace Session

/-- The logger above all others of the engine. -/
def rootLogger : String := "mirrorql"

/-- The level of events. -/
def debugLevel : Nat := 10

/-- The levels by name. -/
def levels : List (String × Nat) :=
  [("CRITICAL", 50), ("FATAL", 50), ("ERROR", 40), ("WARNING", 30), ("WARN", 30), ("INFO", 20),
    ("DEBUG", debugLevel), ("NOTSET", 0)]

/-- A letter in capitals; the dotless i, the long s and the joined s and t are small forms of ASCII
letters too. -/
def capitals (c : Char) : List Char :=
  if c = 'ı' then ['I']
  else if c = 'ſ' then ['S']
  else if c = 'ﬅ' ∨ c = 'ﬆ' then ['S', 'T']
  else [c.toUpper]

/-- The level of a name, in either case.  Two other names of the settings mean a text and a mapping
instead of a level. -/
def levelOf (name : String) : Except Fault Nat :=
  let name := String.ofList (name.toList.flatMap capitals)
  match levels.lookup name with
  | some n => .ok n
  | none =>
    if name = "BASIC_FORMAT" then .error (.unreadable (.member (Text.quoted name) "level"))
    else if name = "_STYLES" then .error .mistyped
    else .error .unsupported

/-- The first name of a level; a number between the levels is its own name. -/
def levelName (n : Nat) : String :=
  ((levels.find? fun entry => entry.2 == n).map Prod.fst).getD ("Level " ++ Numeral.write n)

/-- Set level, style and handlers anew; an unknown level changes nothing. -/
def configure (s : Session) (level style : String) (extra : Bool) : Except Fault Session :=
  (levelOf level).map fun n =>
    { s with level := some n, console := some (.ofName style), extra := extra }

/-- The number of handlers. -/
def handlers (s : Session) : Nat :=
  (if s.console.isSome then 1 else 0) + if s.extra then 1 else 0

/-- The full name of a logger: names outside the engine are put below the root. -/
def fullName : Option String → String
  | none => rootLogger
  | some name =>
    if rootLogger.toList.isPrefixOf name.toList then name else rootLogger ++ "." ++ name

/-- A logger by name, which from now on puts the request id on its records; the root logger taken
without a name stays as it is. -/
def takeLogger (s : Session) (name : Option String) : Session :=
  if name.isNone || s.filtered.contains (fullName name) then s
  else { s with filtered := fullName name :: s.filtered }

/-- Whether a logger puts the request id on its records. -/
def isFiltered (s : Session) (logger : String) : Bool :=
  s.filtered.contains logger

/-- Whether a logger is the root logger or below it. -/
def isBelowRoot (logger : String) : Bool :=
  logger = rootLogger || (rootLogger ++ ".").toList.isPrefixOf logger.toList

/-- Whether events of a logger are written; the level zero leaves the choice to the surroundings,
which write no events. -/
def isEnabled (s : Session) (logger : String) : Bool :=
  isBelowRoot logger &&
    match s.level with
    | none | some 0 => false
    | some n => n ≤ debugLevel

/-- The lines of a text. -/
def splitLines (s : String) : List String :=
  (s.toList.splitOn '\n').map String.ofList

/-- The members that change from run to run. -/
def isVolatile (name : String) : Bool :=
  name = "timestamp" || name = "function" || name = "line"

/-- The members of a JSON line without those that change from run to run. -/
def stableMembers (members : List (String × Value)) : List (String × Value) :=
  members.filter fun entry => !isVolatile entry.1

/-- What the console writes for a record; a record that cannot be read is passed over. -/
def consoleLines (s : Session) (r : Record) : List ConsoleLine :=
  match s.console with
  | none => []
  | some .structured =>
    match r.members s.requestId with
    | .ok members => [.members (stableMembers members)]
    | .error _ => []
  | some .keyValue =>
    match r.lineText Record.lineTemplate s.requestId with
    | .ok line => (splitLines line).map .text
    | .error _ => []

/-- Hand a record to the handlers. -/
def write (s : Session) (r : Record) : Output :=
  let r := if s.isFiltered r.logger then { r with requestId := Record.present s.requestId } else r
  let lines := s.consoleLines r
  if s.extra then
    match r.text with
    | .ok message => ⟨lines, [⟨r.level, r.logger, message, r.requestId⟩], none⟩
    | .error fault => ⟨lines, [], some fault⟩
  else ⟨lines, [], none⟩

/-- Write a record where its logger is enabled. -/
def log (s : Session) (r : Record) : Output :=
  if s.isEnabled r.logger then s.write r else {}

/-- Write what the engine has reported. -/
def publish (s : Session) (events : List Event) : Output :=
  let outputs := events.map fun e => s.log (.ofEvent e)
  ⟨outputs.flatMap Output.lines, outputs.flatMap Output.sightings, none⟩

/-- The names that an event's fields cannot have. -/
def isReserved (name : String) : Bool :=
  name = "logger" || name = "event" || name = "message"

/-- Write an event of a client of the engine. -/
def logEvent (s : Session) (logger : Option String) (kind message : String) (args : List Value)
    (fields : List (String × Value)) : Session × Except Fault Output :=
  let s := s.takeLogger logger
  match EventKind.ofWord? kind with
  | none => (s, .error (.unreadable (.member (Text.quoted kind) "FilterEvent")))
  | some kind =>
    if fields.any fun f => isReserved f.1 then (s, .error .mistyped)
    else
      let output := s.log {
        logger := fullName logger, level := "DEBUG", message := message, args := args,
        fields := ("event", .text kind.word) :: fields }
      (s, .ok output)

end Session

end LedgerQuery
