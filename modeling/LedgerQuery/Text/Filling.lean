import LedgerQuery.Text.Conversion
import LedgerQuery.Text.Directive

/-!
# Filling templates

The directives of a template are filled one after the other.  One without a name takes the next
argument; a value that is looked up takes the place of all arguments that are left.  Every argument
must be used unless values are looked up by name.
-/

namespace LedgerQuery.Text

/-- Where directives find their values. -/
structure Arguments where
  /-- The arguments that are left. -/
  rest : List Value
  /-- The values with names, if there are any. -/
  named : Option (List (String × Value))

namespace Arguments

/-- The next argument. -/
def next (args : Arguments) : Except Fault (Value × Arguments) :=
  match args.rest with
  | [] => .error .mistyped
  | v :: rest => .ok (v, { args with rest := rest })

/-- Look up the name of a directive; its value is the only argument after that. -/
def select (args : Arguments) (source : Source) : Except Fault Arguments :=
  match source, args.named with
  | .next, _ => .ok args
  | _, none => .error .mistyped
  | .unclosed, some _ => .error (.unreadable .template)
  | .named name, some entries =>
    match entries.lookup name with
    | some v => .ok { args with rest := [v] }
    | none => .error (.missing name)

/-- A number of a directive within its bounds: a written one that is larger makes the template
unusable, one among the arguments must be whole and lie between `-limit - 1` and `limit`. -/
def count (args : Arguments) (limit : Nat) : Count → Except Fault (Int × Arguments)
  | .written n => if n ≤ limit then .ok (n, args) else .error (.unreadable .template)
  | .taken => do
    let (v, args) ← args.next
    let n ← v.integer
    if -(limit : Int) - 1 ≤ n ∧ n ≤ limit then return (n, args) else throw .overflow

/-- Whether an argument is left over. -/
def isLeft (args : Arguments) : Bool :=
  args.named.isNone && !args.rest.isEmpty

end Arguments

/-- The greatest width of a directive. -/
def maxWidth : Nat := (1 <<< 63) - 1

/-- The greatest precision of a directive. -/
def maxPrecision : Nat := (1 <<< 31) - 1

namespace Conversion

/-- Set the width; a negative one fills up on the right.  The least number has no opposite and sets
no width. -/
def withWidth (c : Conversion) (n : Int) : Conversion :=
  if 0 ≤ n then { c with width := n.toNat }
  else { c with left := true, width := if n.natAbs ≤ maxWidth then n.natAbs else 0 }

/-- Set the precision; a negative one counts as zero. -/
def withPrecision (c : Conversion) (n : Int) : Conversion :=
  { c with precision := some n.toNat }

end Conversion

namespace Directive

/-- The conversion of a directive, and the arguments after width and precision. -/
def conversion (d : Directive) (args : Arguments) : Except Fault (Conversion × Arguments) := do
  let c := Conversion.ofMarks d.marks
  let (c, args) ← match d.width with
    | none => .ok (c, args)
    | some n => (args.count maxWidth n).map fun taken => (c.withWidth taken.1, taken.2)
  match d.precision with
  | none => return (c, args)
  | some n => (args.count maxPrecision n).map fun taken => (c.withPrecision taken.1, taken.2)

/-- The text of a directive, and the arguments after it. -/
def fill (d : Directive) (args : Arguments) : Except Fault (List Char × Arguments) := do
  let args ← args.select d.source
  let (c, args) ← d.conversion args
  match d.letter with
  | none => throw (.unreadable .template)
  | some letter =>
    let (v, args) ← args.next
    return (← c.apply letter v, args)

end Directive

/-- Fill the parts of a template one after the other. -/
def fillPieces (args : Arguments) : List Piece → Except Fault (List Char)
  | [] => if args.isLeft then .error .mistyped else .ok []
  | .plain c :: rest => (fillPieces args rest).map (c :: ·)
  | .directive d :: rest => do
    let (filled, args) ← d.fill args
    return filled ++ (← fillPieces args rest)

/-- A template with its arguments filled in. -/
def fill (template : String) (args : Arguments) : Except Fault String :=
  (fillPieces args (pieces template.toList)).map String.ofList

/-- A message with its arguments filled in.  Without arguments it stands as it is; a single mapping
with entries serves by name. -/
def fillMessage (message : String) (args : List Value) : Except Fault String :=
  match args with
  | [] => .ok message
  | [.map (entry :: entries)] => fill message ⟨args, some (entry :: entries)⟩
  | _ => fill message ⟨args, none⟩

end LedgerQuery.Text
