import LedgerQuery.Config
import LedgerQuery.Text.Line

/-!
# Reading entity ids

An entity id is written as `shard.realm.num` or as the bare number, in which case the configuration
supplies shard and realm.
-/

namespace LedgerQuery.EntityId

open Numeral (isRun value)
open Text (line)

/-- The three components of an id text. -/
def components? (config : Config) (s : String) : Option (Int × Int × Int) :=
  match (line s.toList).splitOn '.' with
  | [num] =>
    if isRun 1 12 num then some (config.shard, config.realm, value num) else none
  | [shard, realm, num] =>
    if isRun 1 4 shard && isRun 1 5 realm && isRun 1 12 num then
      some (value shard, value realm, value num)
    else none
  | _ => none

/-- Read an id text. -/
def ofText? (config : Config) (s : String) : Option EntityId :=
  (components? config s).bind fun (shard, realm, num) => make? shard realm num

/-- The name under which a refused id is reported. -/
def reportName (param : Option String) : String :=
  match param with
  | none | some "" => "entity id"
  | some name => name

/-- The fault of an id that is refused names the parameter; any other fault stays what it is. -/
def refusal (param : Option String) : Fault → Fault
  | .argument _ => .invalidParameter (reportName param)
  | fault => fault

/-- Read the text of a value as an id; a refusal names the parameter. -/
def parse (config : Config) (param : Option String) (v : Value) : Except Fault EntityId := do
  let text ← v.written
  match components? config text with
  | none => .error (.invalidParameter (reportName param))
  | some (shard, realm, num) => (make shard realm num).mapError (refusal param)

/-- Whether the text of a value is an id under the standard configuration. -/
def isValid (v : Value) : Bool :=
  (ofText? .standard v.plain).isSome

end LedgerQuery.EntityId
