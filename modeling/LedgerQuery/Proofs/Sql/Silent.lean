import LedgerQuery.Proofs.Sql.Closed
import LedgerQuery.Proofs.Sql.Numbers

/-!
# Silent texts

A text is silent when it is cut into the same lexemes in front of every other
text and none of them is a placeholder with a question mark.  Whoever counts or
numbers the placeholders of a text passes over a silent beginning of it, and a
lone question mark takes the next number.  So a text that is put together from
silent texts and question marks is counted and numbered piece by piece, whatever
stands behind it.
-/

namespace LedgerQuery.Sql

/-- A text that neither holds nor hides a question-mark placeholder, wherever it stands in front. -/
def IsSilent (run : List Char) : Prop :=
  ∃ ls, (∀ l ∈ ls, l.isQuestion = false) ∧ ∀ rest, lexemes (run ++ rest) = ls ++ lexemes rest

namespace IsSilent

variable {run other : List Char}

theorem append (first : IsSilent run) (second : IsSilent other) : IsSilent (run ++ other) := by
  rcases first with ⟨ls, noQuestion, read⟩
  rcases second with ⟨ms, noQuestion', read'⟩
  refine ⟨ls ++ ms, ?_, ?_⟩
  · intro l member
    rcases List.mem_append.mp member with member | member
    · exact noQuestion l member
    · exact noQuestion' l member
  · intro rest
    rw [List.append_assoc, read, read', List.append_assoc]

theorem of_inert (inert : ∀ c ∈ run, isInert c = true) : IsSilent run := by
  refine ⟨run.map .plain, ?_, ?_⟩
  · intro l member
    rcases List.mem_map.mp member with ⟨c, -, rfl⟩
    rfl
  · exact lexemes_append_inert inert

/-- A fixed text without special characters is silent. -/
theorem of_all (inert : run.all isInert = true) : IsSilent run :=
  of_inert (List.all_eq_true.mp inert)

theorem literal (noQuote : '"' ∉ run) (noEscape : '\\' ∉ run) :
    IsSilent ('"' :: (run ++ ['"'])) := by
  refine ⟨[.literal ('"' :: (run ++ ['"']))], ?_, ?_⟩
  · intro l member
    rw [List.mem_singleton.mp member]
    rfl
  · intro rest
    have whole : '"' :: (run ++ ['"']) ++ rest = '"' :: (run ++ '"' :: rest) := by simp
    rw [whole, lexemes, Lexeme.next_quote (Or.inl rfl), Lexeme.ofQuote,
      closeQuote_run noQuote noEscape]
    rfl

/-- The lexemes of a silent text are those it has alone. -/
theorem lexemes_append (silent : IsSilent run) (rest : List Char) :
    lexemes (run ++ rest) = lexemes run ++ lexemes rest := by
  rcases silent with ⟨ls, -, read⟩
  have alone := read []
  rw [lexemes_nil, List.append_nil, List.append_nil] at alone
  rw [read, alone]

theorem isQuestion_of_mem_lexemes (silent : IsSilent run) {l : Lexeme} (member : l ∈ lexemes run) :
    l.isQuestion = false := by
  rcases silent with ⟨ls, noQuestion, read⟩
  have alone := read []
  rw [lexemes_nil, List.append_nil, List.append_nil] at alone
  rw [alone] at member
  exact noQuestion l member

end IsSilent

/-! ## Counting -/

theorem questionCount_silent
    {run : List Char} (silent : IsSilent run) (rest : List Char) :
    questionCount (run ++ rest) = questionCount rest := by
  have none : (lexemes run).countP Lexeme.isQuestion = 0 := by
    rw [List.countP_eq_zero]
    intro l member question
    rw [silent.isQuestion_of_mem_lexemes member] at question
    cases question
  rw [questionCount, silent.lexemes_append, List.countP_append, none, Nat.zero_add]
  rfl

theorem lexemes_question
    {rest : List Char} (stop : Avoids continuesQuestion rest) :
    lexemes ('?' :: rest) = .anonymous :: lexemes rest := by
  rw [lexemes, Lexeme.next_question, Lexeme.ofQuestion_of_avoids stop]

theorem questionCount_question
    {rest : List Char} (stop : Avoids continuesQuestion rest) :
    questionCount ('?' :: rest) = questionCount rest + 1 := by
  rw [questionCount, lexemes_question stop, List.countP_cons_of_pos rfl]
  rfl

/-! ## Numbering -/

/-- A text with its placeholders in the numbered style, of which `last` have been given before and
none has a name. -/
def numberedFrom (last : Nat) (cs : List Char) : List Char :=
  sources (renumber ⟨last, []⟩ (lexemes cs))

theorem toNumbered_eq (sql : String) : toNumbered sql = String.ofList (numberedFrom 0 sql.toList) :=
  rfl

@[simp]
theorem numberedFrom_nil (last : Nat) : numberedFrom last [] = [] := by
  rw [numberedFrom, lexemes_nil]
  rfl

theorem renumber_append_other
    {ls : List Lexeme} (noQuestion : ∀ l ∈ ls, l.isQuestion = false)
    (numbering : Numbering) (ms : List Lexeme) :
    renumber numbering (ls ++ ms) = ls ++ renumber numbering ms := by
  induction ls with
  | nil => rfl
  | cons l ls ih =>
    have others := ih fun m member => noQuestion m (List.mem_cons_of_mem l member)
    rw [List.cons_append, renumber, Numbering.assign?_other (noQuestion l List.mem_cons_self),
      others]
    rfl

theorem numberedFrom_silent
    {run : List Char} (silent : IsSilent run) (last : Nat) (rest : List Char) :
    numberedFrom last (run ++ rest) = run ++ numberedFrom last rest := by
  rw [numberedFrom, silent.lexemes_append,
    renumber_append_other fun _ member => silent.isQuestion_of_mem_lexemes member, sources_append,
    sources_lexemes]
  rfl

theorem numberedFrom_question
    {rest : List Char} (stop : Avoids continuesQuestion rest) (last : Nat) :
    numberedFrom last ('?' :: rest) =
      '$' :: (Numeral.decimal (last + 1) ++ numberedFrom (last + 1) rest) := by
  rw [numberedFrom, lexemes_question stop]
  rfl

/-! ## Piece by piece -/

/-- In front of any text that a question mark does not take along, a text has a number of
placeholders and is written with the numbers that follow the last one given. -/
structure Renders (last count : Nat) (cs ds : List Char) : Prop where
  counted : ∀ rest, Avoids continuesQuestion rest →
    questionCount (cs ++ rest) = count + questionCount rest
  numbered : ∀ rest, Avoids continuesQuestion rest →
    numberedFrom last (cs ++ rest) = ds ++ numberedFrom (last + count) rest

theorem avoids_append
    {p : Char → Bool} {cs rest : List Char} (first : Avoids p cs) (second : Avoids p rest) :
    Avoids p (cs ++ rest) := by
  cases cs with
  | nil => exact second
  | cons c cs => exact avoids_cons.mpr (avoids_cons.mp first)

namespace Renders

variable {last count more : Nat} {cs cs' ds ds' : List Char}

theorem nil : Renders last 0 [] [] where
  counted := by
    intro rest _
    rw [List.nil_append, Nat.zero_add]
  numbered := by
    intro rest _
    rw [List.nil_append, List.nil_append, Nat.add_zero]

theorem of_silent {run : List Char} (silent : IsSilent run) : Renders last 0 run run where
  counted := by
    intro rest _
    rw [questionCount_silent silent, Nat.zero_add]
  numbered := by
    intro rest _
    rw [numberedFrom_silent silent, Nat.add_zero]

theorem question : Renders last 1 ['?'] ('$' :: Numeral.decimal (last + 1)) where
  counted := by
    intro rest stop
    rw [List.singleton_append, questionCount_question stop, Nat.add_comm]
  numbered := by
    intro rest stop
    rw [List.singleton_append, numberedFrom_question stop, List.cons_append]

theorem silent_append
    {run : List Char} (silent : IsSilent run) (renders : Renders last count cs ds) :
    Renders last count (run ++ cs) (run ++ ds) where
  counted := by
    intro rest stop
    rw [List.append_assoc, questionCount_silent silent, renders.counted rest stop]
  numbered := by
    intro rest stop
    rw [List.append_assoc, numberedFrom_silent silent, renders.numbered rest stop,
      List.append_assoc]

theorem append
    (first : Renders last count cs ds) (stop : Avoids continuesQuestion cs')
    (second : Renders (last + count) more cs' ds') :
    Renders last (count + more) (cs ++ cs') (ds ++ ds') where
  counted := by
    intro rest stopRest
    rw [List.append_assoc, first.counted _ (avoids_append stop stopRest),
      second.counted rest stopRest, Nat.add_assoc]
  numbered := by
    intro rest stopRest
    rw [List.append_assoc, first.numbered _ (avoids_append stop stopRest),
      second.numbered rest stopRest, List.append_assoc, Nat.add_assoc]

theorem questionCount_eq (renders : Renders last count cs ds) : questionCount cs = count := by
  have whole := renders.counted [] avoids_nil
  rwa [List.append_nil, questionCount_nil, Nat.add_zero] at whole

theorem numberedFrom_eq (renders : Renders last count cs ds) : numberedFrom last cs = ds := by
  have whole := renders.numbered [] avoids_nil
  rwa [List.append_nil, numberedFrom_nil, List.append_nil] at whole

end Renders

end LedgerQuery.Sql
