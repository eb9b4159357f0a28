import LedgerQuery.Clause.Compile
import LedgerQuery.Proofs.Sql.Joined
import LedgerQuery.Proofs.Sql.Numbers

/-!
# Numbers and values of rendered clauses

A balanced clause in the numbered style binds its placeholders in order as long
as no name occurs twice.  The main statement says that this condition is exact:
where a name is repeated the last value stands behind no placeholder at all.
-/

namespace LedgerQuery

open Sql (countQuestions lexemes sources numbers relabel names Unglued)

namespace Clause

/--
A balanced clause in the numbered style keeps its values and everything in its
text but the question marks, each of which becomes a dollar sign with a number.
The numbers are one, two, three and so on up to the number of values exactly
when no two placeholders have a common name; otherwise nothing refers to the
last value.  The new text is read as the old one with these placeholders,
unless it had a digit directly behind an anonymous question mark.
-/
theorem numbered_of_balanced
    {clause : Clause}
    (balanced : countQuestions clause.text = clause.values.length) :
    let ls := lexemes clause.text.toList
    let given := numbers .start ls
    let count := clause.values.length
    clause.numbered.values = clause.values ∧
      clause.numbered.text.toList = sources (relabel given ls) ∧
      given.length = count ∧
      (given = List.range' 1 count ↔ (names ls).Nodup) ∧
      (¬(names ls).Nodup → count ∉ given) ∧
      (Unglued ls → lexemes clause.numbered.text.toList = relabel given ls) := by
  intro ls given count
  have total : ls.countP Sql.Lexeme.isQuestion = count := balanced
  have rendered : clause.numbered.text.toList = sources (relabel given ls) := by
    rw [numbered, Sql.toNumbered, String.toList_ofList, Sql.renumber_eq_relabel]
  refine ⟨rfl, rendered, ?_, ?_, ?_, ?_⟩
  · rw [← total]
    exact Sql.length_numbers .start ls
  · rw [← total]
    exact Sql.numbers_start_eq_range_iff
  · rw [← total]
    exact Sql.notMem_numbers_start_of_not_nodup
  · intro unglued
    rw [rendered]
    exact Sql.lexemes_relabel unglued given

/-- Two bounds on a column, one with an anonymous and one with a named placeholder. -/
theorem numbered_of_balanced_bounds :
    let clause : Clause := ⟨"x > ?v and x < ?", [.int 1, .int 2]⟩
    countQuestions clause.text = clause.values.length ∧
      numbers .start (lexemes clause.text.toList) = List.range' 1 2 ∧
      clause.numbered.text.toList = "x > $1 and x < $2".toList := by
  intro clause
  have balanced : countQuestions clause.text = clause.values.length := by decide +kernel
  rcases numbered_of_balanced balanced with ⟨-, rendered, -, consecutive, -, -⟩
  have given := consecutive.mpr (by decide +kernel)
  refine ⟨balanced, given, ?_⟩
  rw [rendered, given]
  decide +kernel

/-- The criteria of one column under one name share a number, so the second value is not bound. -/
theorem numbered_shares_number_of_name :
    let rule : ClauseRule :=
      { builder := .ofFunction
          (fun sign value => .tuple [.text ("x" ++ sign ++ "?v"), value]) none }
    let clause : Clause := ⟨"x > ?v and x < ?v", [.text "1", .text "2"]⟩
    (compile rule (.list [.text "gt:1", .text "lt:2"])).result = .ok clause ∧
      countQuestions clause.text = clause.values.length ∧
      clause.numbered.text = "x > $1 and x < $1" := by
  refine ⟨?_, ?_, ?_⟩
  · cbv
  · decide +kernel
  · decide +kernel

end Clause

end LedgerQuery
