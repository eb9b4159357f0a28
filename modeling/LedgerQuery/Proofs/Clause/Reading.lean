import LedgerQuery.Clause.Fragment
import LedgerQuery.Timestamp.Filter
import Mathlib

/-!
# Reading clauses

What a clause says is read from its text and values alone: the text is a list of
comparisons of the column with placeholders, `and` between them, and the values
belong to the placeholders in order.  The clause without text restricts nothing.
A number satisfies a clause that can be read when it satisfies every comparison.

The clause of some conditions is read as these conditions.
-/

namespace LedgerQuery

open Timestamp (Condition)

namespace Sql

/-- The relation that a sign of SQL stands for. -/
def operatorOfSign? : List Char → Option Operator
  | ['='] => some .eq
  | ['<', '>'] => some .ne
  | ['!', '='] => some .ne
  | ['<'] => some .lt
  | ['<', '='] => some .lte
  | ['>'] => some .gt
  | ['>', '='] => some .gte
  | _ => none

/-- Read a comparison of a column with a placeholder, and what stands behind it. -/
def readComparison (name cs : List Char) : Option (Operator × List Char) := do
  let signed ← cs.dropPrefix? (name ++ [' '])
  let operator ← operatorOfSign? (signed.takeWhile (· != ' '))
  let rest ← (signed.dropWhile (· != ' ')).dropPrefix? [' ', '?']
  return (operator, rest)

/-- Read further comparisons, each behind an `and`, with their values. -/
def readFurther (name : List Char) : List Char → List Value → Option (List Condition)
  | [], [] => some []
  | cs, .int n :: values => do
    let comparison ← cs.dropPrefix? Clause.conjunction.toList
    let (operator, rest) ← readComparison name comparison
    let others ← readFurther name rest values
    return (operator, n) :: others
  | _, _ => none

end Sql

namespace Clause

/-- The conditions on a column that a clause spells out. -/
def conditions? (column : String) (clause : Clause) : Option (List Condition) :=
  match clause.values with
  | [] => if clause.text.isEmpty then some [] else none
  | .int n :: values => do
    let (operator, rest) ← Sql.readComparison (Sql.columnName column) clause.text.toList
    let others ← Sql.readFurther (Sql.columnName column) rest values
    return (operator, n) :: others
  | _ => none

/-- The clause can be read and holds for a number in the column. -/
def Holds (column : String) (clause : Clause) (x : Int) : Prop :=
  ∃ cs, clause.conditions? column = some cs ∧ ∀ c ∈ cs, c.1.Holds x c.2

/-- The clause that spells out conditions on a column. -/
def ofConditions (column : Column) (cs : List Condition) : Clause :=
  ⟨conjunction.intercalate (cs.map fun c => column.comparison c.1), cs.map fun c => .int c.2⟩

end Clause

/-! ## Reading undoes writing -/

namespace Sql

theorem exists_mark (operator : Operator) :
    ∃ mark, (Column.sign operator).toList = ' ' :: (mark ++ [' ']) ∧
      mark.all (· != ' ') = true ∧ operatorOfSign? mark = some operator := by
  cases operator with
  | eq => exact ⟨['='], rfl, rfl, rfl⟩
  | ne => exact ⟨['<', '>'], rfl, rfl, rfl⟩
  | lt => exact ⟨['<'], rfl, rfl, rfl⟩
  | lte => exact ⟨['<', '='], rfl, rfl, rfl⟩
  | gt => exact ⟨['>'], rfl, rfl, rfl⟩
  | gte => exact ⟨['>', '='], rfl, rfl, rfl⟩

theorem readComparison_comparison
    (column : Column) (operator : Operator) (rest : List Char) :
    readComparison (columnName column.name) ((column.comparison operator).toList ++ rest) =
      some (operator, rest) := by
  rcases exists_mark operator with ⟨mark, spelled, noBlank, known⟩
  have written : (column.comparison operator).toList ++ rest =
      (columnName column.name ++ [' ']) ++ (mark ++ ' ' :: '?' :: rest) := by
    rw [Column.comparison, String.toList_append, String.toList_append, String.toList_ofList,
      spelled]
    simp
  have sign : (mark ++ ' ' :: '?' :: rest).takeWhile (· != ' ') = mark := by
    rw [List.takeWhile_append_of_pos (List.all_eq_true.mp noBlank),
      List.takeWhile_cons_of_neg (by decide), List.append_nil]
  have placeholder :
      (mark ++ ' ' :: '?' :: rest).dropWhile (· != ' ') = [' ', '?'] ++ rest := by
    rw [List.dropWhile_append_of_pos (List.all_eq_true.mp noBlank),
      List.dropWhile_cons_of_neg (by decide)]
    rfl
  rw [readComparison, written, List.dropPrefix?_append_of_beq _ BEq.rfl, Option.bind_eq_bind,
    Option.bind_some, sign, known, Option.bind_eq_bind, Option.bind_some, placeholder,
    List.dropPrefix?_append_of_beq _ BEq.rfl]
  rfl

theorem readFurther_comparisons (column : Column) (cs : List Condition) :
    readFurther (columnName column.name)
        (cs.flatMap fun c => Clause.conjunction.toList ++ (column.comparison c.1).toList)
        (cs.map fun c => .int c.2) =
      some cs := by
  induction cs with
  | nil => rfl
  | cons c cs ih =>
    rw [List.flatMap_cons, List.map_cons, List.append_assoc, readFurther,
      List.dropPrefix?_append_of_beq _ BEq.rfl, Option.bind_eq_bind, Option.bind_some,
      readComparison_comparison, Option.bind_eq_bind, Option.bind_some]
    dsimp only
    rw [ih]
    rfl

end Sql

theorem toList_intercalate (separator text : String) (texts : List String) :
    (separator.intercalate (text :: texts)).toList =
      text.toList ++ texts.flatMap fun other => separator.toList ++ other.toList := by
  induction texts generalizing text with
  | nil => simp
  | cons second texts ih =>
    rw [String.intercalate_cons_cons, String.toList_append, String.toList_append, ih,
      List.flatMap_cons, List.append_assoc, List.append_assoc]

/-- The clause of conditions is read as these conditions. -/
theorem Clause.conditions?_ofConditions (column : Column) (cs : List Condition) :
    (ofConditions column cs).conditions? column.name = some cs := by
  cases cs with
  | nil => rfl
  | cons c cs =>
    have text : (ofConditions column (c :: cs)).text.toList =
        (column.comparison c.1).toList ++
          cs.flatMap fun c => conjunction.toList ++ (column.comparison c.1).toList := by
      rw [ofConditions, List.map_cons, toList_intercalate, List.flatMap_map]
    have values : (ofConditions column (c :: cs)).values = .int c.2 :: cs.map fun c => .int c.2 :=
      rfl
    rw [conditions?, values]
    dsimp only
    rw [text, Sql.readComparison_comparison, Option.bind_eq_bind, Option.bind_some]
    dsimp only
    rw [Sql.readFurther_comparisons]
    rfl

theorem Clause.holds_ofConditions_iff {column : Column} {cs : List Condition} {x : Int} :
    (ofConditions column cs).Holds column.name x ↔ ∀ c ∈ cs, c.1.Holds x c.2 := by
  have read := conditions?_ofConditions column cs
  constructor
  · rintro ⟨cs', read', holds⟩
    rw [read] at read'
    cases read'
    exact holds
  · intro holds
    exact ⟨cs, read, holds⟩

end LedgerQuery
