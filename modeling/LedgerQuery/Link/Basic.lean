import LedgerQuery.Link.Component

/-!
# Links

A link is a question mark and pairs of a name and a value, an equals sign inside a pair and an
ampersand between pairs.  Reading a link gathers the values of one name in a list, the names in the
order of their first pair.
-/

namespace LedgerQuery.Link

/-- A name with its values, in order; no name occurs twice. -/
abbrev Tokens := List (String × List String)

/-- One pair of a link. -/
def writePair (pair : String × String) : List Char :=
  component pair.1.toList ++ '=' :: component pair.2.toList

/-- The link of a list of pairs. -/
def write (pairs : List (String × String)) : String :=
  String.ofList ('?' :: ['&'].intercalate (pairs.map writePair))

/-- The pairs of tokens: each name once for each of its values. -/
def pairs (tokens : Tokens) : List (String × String) :=
  tokens.flatMap fun entry => entry.2.map (entry.1, ·)

/-- One pair, split at its first equals sign; without one the value is empty. -/
def readPair (cs : List Char) : String × String :=
  (String.ofList (readComponent (cs.takeWhile (· != '='))),
    String.ofList (readComponent ((cs.dropWhile (· != '=')).drop 1)))

/-- The pairs of a link. -/
def readPairs (link : String) : List (String × String) :=
  (((link.toList.drop 1).splitOn '&').filter fun piece => !piece.isEmpty).map readPair

/-- Add a value to the values of a name; a new name comes last. -/
def addValue (tokens : Tokens) (pair : String × String) : Tokens :=
  match tokens with
  | [] => [(pair.1, [pair.2])]
  | entry :: rest =>
    if entry.1 = pair.1 then (entry.1, entry.2 ++ [pair.2]) :: rest
    else entry :: addValue rest pair

/-- The values of pairs by name. -/
def gather (pairs : List (String × String)) : Tokens :=
  pairs.foldl addValue []

/-- The tokens of a link. -/
def read (link : String) : Tokens :=
  gather (readPairs link)

end LedgerQuery.Link
