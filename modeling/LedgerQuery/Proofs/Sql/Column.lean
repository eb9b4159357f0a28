import LedgerQuery.Clause.Fragment
import LedgerQuery.Proofs.Sql.Silent

/-!
# Columns in SQL text

The name of a column is silent, in quotes or without, as long as it has no
backslash: quotes inside a quoted name are written twice, so the scanner reads
such a name as several quoted texts in a row.  The signs of comparisons are
silent too.
-/

namespace LedgerQuery

namespace Sql

/-! ## Names without quotes -/

theorem isInert_of_isWord {c : Char} (word : Text.isWord c = true) : isInert c = true := by
  by_cases inert : isInert c = true
  · exact inert
  simp only [isInert, Bool.not_eq_true', Bool.not_eq_false, Bool.or_eq_true,
    beq_iff_eq] at inert
  rcases inert with ((((rfl | rfl) | rfl) | rfl) | rfl) | rfl <;> exact absurd word (by decide)

theorem mem_line_or_eq_newline {cs : List Char} {c : Char} (member : c ∈ cs) :
    c ∈ Text.line cs ∨ c = '\n' := by
  rcases Text.eq_line_or cs with same | feed
  · rw [← same]
    exact Or.inl member
  · rw [feed] at member
    exact (List.mem_append.mp member).imp_right List.mem_singleton.mp

/-- The characters of a plain name are word characters, and perhaps a line feed at the end. -/
theorem isInert_of_mem_plainName
    {cs : List Char} (isPlain : isPlainName cs = true)
    {c : Char} (member : c ∈ cs) :
    isInert c = true := by
  rcases mem_line_or_eq_newline member with inside | rfl
  · apply isInert_of_isWord
    rw [isPlainName] at isPlain
    split at isPlain
    · cases isPlain
    · next first others isLine =>
      rw [Bool.and_eq_true] at isPlain
      rw [isLine] at inside
      rcases List.mem_cons.mp inside with rfl | inside
      · exact isWord_of_isNameStart isPlain.1
      · exact List.all_eq_true.mp isPlain.2 c inside
  · decide

/-! ## Names in quotes -/

/-- The characters of a name between quotes. -/
def doubled (cs : List Char) : List Char :=
  cs.flatMap fun c => if c = '"' then ['"', '"'] else [c]

/-- A quoted name is read as one quoted text for each stretch without quotes. -/
theorem isSilent_quoted
    {cs : List Char} (noEscape : '\\' ∉ cs)
    {run : List Char} (noQuote : '"' ∉ run) (noEscapeBefore : '\\' ∉ run) :
    IsSilent ('"' :: (run ++ doubled cs ++ ['"'])) := by
  induction cs generalizing run with
  | nil =>
    rw [doubled, List.flatMap_nil, List.append_nil]
    exact .literal noQuote noEscapeBefore
  | cons c cs ih =>
    rw [List.mem_cons, not_or] at noEscape
    by_cases quote : c = '"'
    · -- Of the two quotes one ends a quoted text, and the other begins the next.
      have parts : '"' :: (run ++ doubled (c :: cs) ++ ['"']) =
          '"' :: (run ++ ['"']) ++ '"' :: ([] ++ doubled cs ++ ['"']) := by
        simp [doubled, quote]
      rw [parts]
      apply IsSilent.append (.literal noQuote noEscapeBefore)
      exact ih noEscape.2 List.not_mem_nil List.not_mem_nil
    · have next : run ++ doubled (c :: cs) = (run ++ [c]) ++ doubled cs := by
        simp [doubled, quote]
      rw [next]
      apply ih noEscape.2
      · rw [List.mem_append, List.mem_singleton, not_or]
        exact ⟨noQuote, Ne.symm quote⟩
      · rw [List.mem_append, List.mem_singleton, not_or]
        exact ⟨noEscapeBefore, noEscape.1⟩

/-! ## Columns -/

theorem isSilent_identifier {cs : List Char} (noEscape : '\\' ∉ cs) : IsSilent (identifier cs) := by
  rw [identifier]
  split
  · next isPlain => exact .of_inert fun c member => isInert_of_mem_plainName isPlain member
  · exact isSilent_quoted noEscape List.not_mem_nil List.not_mem_nil

theorem mem_of_mem_splitLast
    {cs : List Char} {c : Char}
    (member : c ∈ (splitLast cs).1 ∨ c ∈ (splitLast cs).2) :
    c ∈ cs := by
  rw [splitLast] at member
  rcases member with member | member
  · have inside := List.mem_of_mem_drop (List.mem_reverse.mp member)
    exact List.mem_reverse.mp ((List.dropWhile_sublist _).subset inside)
  · have inside := (List.takeWhile_sublist _).subset (List.mem_reverse.mp member)
    exact List.mem_reverse.mp inside

/-- A column name without a backslash neither holds nor hides a placeholder. -/
theorem isSilent_columnName
    {column : String} (noEscape : '\\' ∉ column.toList) :
    IsSilent (columnName column) := by
  have noEscapeLeft : '\\' ∉ (splitLast column.toList).1 := fun member =>
    noEscape (mem_of_mem_splitLast (Or.inl member))
  have noEscapeRight : '\\' ∉ (splitLast column.toList).2 := fun member =>
    noEscape (mem_of_mem_splitLast (Or.inr member))
  rw [columnName]
  generalize splitLast column.toList = parts at noEscapeLeft noEscapeRight
  rcases parts with ⟨table, name⟩
  dsimp only
  split
  · exact isSilent_identifier noEscapeRight
  · have point : IsSilent ['.'] := .of_all (by decide)
    apply IsSilent.append (isSilent_identifier noEscapeLeft)
    exact point.append (isSilent_identifier noEscapeRight)

end Sql

theorem Column.isSilent_sign (operator : Operator) : Sql.IsSilent (sign operator).toList := by
  apply Sql.IsSilent.of_all
  cases operator <;> decide

end LedgerQuery
