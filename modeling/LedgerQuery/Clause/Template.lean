/-!
# Marks in a template

The text of a fragment may be given as a template with a mark where something is to be filled in.
-/

namespace LedgerQuery.Template

/-- Replace every mark by the filling, from left to right; the first `skip` characters belong to a
mark that has been replaced. -/
def replace (mark filling : List Char) : (skip : Nat) → List Char → List Char
  | _, [] => []
  | skip + 1, _ :: cs => replace mark filling skip cs
  | 0, c :: cs =>
    if mark.isPrefixOf (c :: cs) then filling ++ replace mark filling (mark.length - 1) cs
    else c :: replace mark filling 0 cs

/-- The template with every mark filled in. -/
def fill (mark filling template : String) : String :=
  String.ofList (replace mark.toList filling.toList 0 template.toList)

/-- A placeholder for each of a number of values. -/
def placeholders (count : Nat) : String :=
  ", ".intercalate (List.replicate count "?")

end LedgerQuery.Template
