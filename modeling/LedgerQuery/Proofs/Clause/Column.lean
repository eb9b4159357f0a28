import LedgerQuery.Proofs.Clause.Part

/-!
# Conditions on a column

Where every value of a parameter is converted to a number and nothing is
gathered, each retained criterion becomes one comparison of the column.  So the
clause spells out conditions, and these are exactly the conditions asked for.
-/

namespace LedgerQuery

open Timestamp (Condition)

/-- A condition as a criterion with a number. -/
def Criterion.ofCondition (c : Condition) : Criterion :=
  (c.1, .int c.2)

theorem Criterion.same_ofCondition (a b : Condition) :
    (ofCondition a).same (ofCondition b) = true ↔ a = b :=
  same_ofKind Value.isKeyKind_int a b

section Column

variable {rule : ClauseRule} {column : Column}

/-- Without overrides the parts of conditions say what the conditions say. -/
theorem Clause.ofParts_conditions
    (plain : column.overrides = []) (apart : rule.gatherEq = false) (cs : List Condition) :
    ofParts column (column.parts rule (cs.map Criterion.ofCondition)) =
      ofConditions column cs := by
  have rendered (operator : Operator) : column.rendered operator = operator := by
    rw [Column.rendered, plain]
    rfl
  have parts : column.parts rule (cs.map Criterion.ofCondition) =
      cs.map fun c => .comparison c.1 (.int c.2) := by
    rw [Column.parts, ownCriteria_of_apart apart, gatheredValues_of_apart apart, List.map_map]
    simp [Criterion.ofCondition, rendered]
  rw [parts, ofParts, Column.conjunctionText, Column.texts_anonymous, List.map_map,
    List.flatMap_map, ofConditions]
  congr 1
  exact (List.map_eq_flatMap ..).symm

/--
Where every criterion is bound to a number, the clause of a column spells out
the conditions asked for, each once.  There is one for every column whose name
has no backslash.
-/
theorem compile_conditions
    (builder : rule.builder = column.builder) (plain : column.overrides = [])
    (apart : rule.gatherEq = false)
    {raw : Value} {found : List Criterion} (read : criteria raw = .ok found)
    {asked : List Condition}
    (binds : List.Forall₂ rule.Binds found (asked.map Criterion.ofCondition)) :
    ∃ distinct : List Condition, (∀ c, c ∈ distinct ↔ c ∈ asked) ∧
      (∀ clause, (compile rule raw).result = .ok clause →
        clause = Clause.ofConditions column distinct) ∧
      ('\\' ∉ column.name.toList → ∃ clause, (compile rule raw).result = .ok clause) := by
  rcases result_compile_of_binds read Criterion.same_ofCondition binds with
    ⟨distinct, members, compiled⟩
  have keys : ∀ c ∈ distinct.map Criterion.ofCondition, c.2.isKey = true := by
    rw [List.forall_mem_map]
    intro c _
    rfl
  refine ⟨distinct, members, ?_, ?_⟩
  · intro clause done
    rw [compiled] at done
    rw [eq_ofParts_of_assemble builder keys done, Clause.ofParts_conditions plain apart]
  · intro noEscape
    rw [compiled]
    apply exists_assemble builder noEscape keys
    intro some
    exact absurd (gatheredValues_of_apart apart _) some

end Column

end LedgerQuery
