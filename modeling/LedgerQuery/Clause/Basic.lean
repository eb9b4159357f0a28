import LedgerQuery.Sql.Placeholder
import LedgerQuery.Value.Basic

/-!
# Clauses

A clause is a condition in SQL text with a placeholder for every value, and the values in the order
of their placeholders.  The clause with no text and no values restricts nothing.
-/

namespace LedgerQuery

/-- A condition with the values bound to its placeholders. -/
structure Clause where
  text : String
  values : List Value
  deriving Repr

namespace Clause

/-- The clause that restricts nothing. -/
def empty : Clause :=
  ⟨"", []⟩

/-- Put clauses together with a separator; clauses without text are left out with their values. -/
def join (separator : String) (clauses : List Clause) : Clause :=
  let kept := clauses.filter fun clause => !clause.text.isEmpty
  ⟨separator.intercalate (kept.map Clause.text), kept.flatMap Clause.values⟩

/-- What stands between the conditions of a clause. -/
def conjunction : String :=
  " and "

/-- The clause with its placeholders in the numbered style. -/
def numbered (clause : Clause) : Clause :=
  ⟨Sql.toNumbered clause.text, clause.values⟩

end Clause

end LedgerQuery
