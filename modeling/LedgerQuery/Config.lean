import LedgerQuery.Value.Order

/-!
# Configuration

The limits and switches that the engine consults.  Settings are given by name as values of any type;
the engine works with those whose values have the types that it needs.
-/

namespace LedgerQuery

/-- One day in nanoseconds. -/
def oneDay : Int := 86400000000000

/-- Values by the names of the settings. -/
abbrev Settings := List (String × Value)

/-- The limits and switches of a service. -/
structure Config where
  /-- Page size of a request that gives none. -/
  defaultLimit : Int := 25
  /-- Greatest page size. -/
  maxLimit : Int := 100
  /-- How often a parameter may be repeated. -/
  maxRepeated : Int := 100
  /-- Widest timestamp range, in nanoseconds. -/
  maxTimestampRange : Int := 7 * oneDay
  /-- Whether mixed timestamp operators are refused. -/
  strictTimestamp : Bool := true
  /-- Shard of an entity id that names none. -/
  shard : Int := 0
  /-- Realm of an entity id that names none. -/
  realm : Int := 0
  deriving DecidableEq, Repr

namespace Config

/-- The configuration with every setting at its default. -/
def standard : Config := {}

/-- The settings by name, in alphabetical order. -/
def settings (c : Config) : Settings :=
  [("default_limit", .int c.defaultLimit), ("max_limit", .int c.maxLimit),
    ("max_repeated_query_parameters", .int c.maxRepeated),
    ("max_timestamp_range_ns", .int c.maxTimestampRange), ("realm", .int c.realm),
    ("shard", .int c.shard), ("strict_timestamp_param", .bool c.strictTimestamp)]

/-- Change one setting by name; an unknown name is a fault. -/
def set (c : Config) (name : String) (v : Value) : Except Fault Config :=
  match name, v with
  | "default_limit", .int n => .ok { c with defaultLimit := n }
  | "max_limit", .int n => .ok { c with maxLimit := n }
  | "max_repeated_query_parameters", .int n => .ok { c with maxRepeated := n }
  | "max_timestamp_range_ns", .int n => .ok { c with maxTimestampRange := n }
  | "strict_timestamp_param", v => .ok { c with strictTimestamp := v.truthy }
  | "shard", .int n => .ok { c with shard := n }
  | "realm", .int n => .ok { c with realm := n }
  | _, _ => .error .mistyped

/-- The standard configuration with some settings changed. -/
def ofSettings (settings : Settings) : Except Fault Config :=
  settings.foldlM (fun c setting => c.set setting.1 setting.2) standard

end Config

namespace Settings

/-- The settings of the standard configuration. -/
def standard : Settings :=
  Config.standard.settings

/-- Change one setting by name, whatever its type; an unknown name is a fault. -/
def set (settings : Settings) (name : String) (v : Value) : Except Fault Settings :=
  if settings.any fun setting => setting.1 == name then
    .ok (settings.map fun setting => if setting.1 = name then (name, v) else setting)
  else .error .mistyped

/-- The standard settings with some of them changed. -/
def ofChanges (changes : List (String × Value)) : Except Fault Settings :=
  changes.foldlM (fun settings change => settings.set change.1 change.2) standard

/-- Settings as they are shown inside a message. -/
def shown (settings : Settings) : String :=
  "QueryConfig(" ++
    ", ".intercalate (settings.map fun setting => setting.1 ++ "=" ++ setting.2.quoted) ++ ")"

/-- Whether two lists of settings have the same values. -/
def same (a b : Settings) : Bool :=
  a.length == b.length && (a.zip b).all fun pair => pair.1.2.equal pair.2.2

/-- Refuse settings with a value that cannot serve as a key. -/
def checked (settings : Settings) : Except Fault Settings :=
  if settings.all fun setting => setting.2.isKey then .ok settings else .error .mistyped

end Settings

end LedgerQuery
