import LedgerQuery.Text.Line
import LedgerQuery.Text.Word

/-!
# Identifiers

A column is named by a table and a name with a point between them, or by the name alone.  A part
that is a plain word stands as it is; any other part is put between double quotes, a quote inside
written twice.
-/

namespace LedgerQuery.Sql

/-- Whether the characters are a word that needs no quotes. -/
def isPlainName (cs : List Char) : Bool :=
  match Text.line cs with
  | [] => false
  | c :: rest => Text.isNameStart c && rest.all Text.isWord

/-- One part of a column name as it stands in SQL text. -/
def identifier (cs : List Char) : List Char :=
  if isPlainName cs then cs
  else '"' :: cs.flatMap (fun c => if c = '"' then ['"', '"'] else [c]) ++ ['"']

/-- The characters before and after the last point; without a point there is nothing before. -/
def splitLast (cs : List Char) : List Char × List Char :=
  let reversed := cs.reverse
  ((reversed.dropWhile (· != '.')).drop 1 |>.reverse, (reversed.takeWhile (· != '.')).reverse)

/-- A column as it stands in SQL text. -/
def columnName (column : String) : List Char :=
  let (table, name) := splitLast column.toList
  if table.isEmpty then identifier name else identifier table ++ '.' :: identifier name

end LedgerQuery.Sql
