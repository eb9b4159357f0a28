import LedgerQuery.Clause.Basic
import LedgerQuery.Proofs.Sql.Spacing
import Mathlib

/-!
# Closed texts

A text is closed when every quote and every comment that begins in it is over
at its end.  What stands behind a closed text and a blank is scanned as if it
stood alone, so the placeholders of closed texts that are joined are the
placeholders of the texts.

For a text that is not closed there is always a closed one which, joined to it,
loses its placeholder: the quote or the comment left open runs on into it.
-/

namespace LedgerQuery.Sql

namespace Lexeme

/-- Whether a lexeme, in front of others, begins a quote or a comment that is not over at the end
of the text. -/
def leavesOpen (l : Lexeme) (ls : List Lexeme) : Bool :=
  match l with
  | plain c => c == '"' || c == '\'' || (c == '/' && ls.head? == some (plain '*'))
  | comment text => text.head? == some '-' && ls.isEmpty
  | _ => false

end Lexeme

/-- Whether no lexeme begins a quote or a comment that is not over at the end. -/
def areClosed : List Lexeme → Bool
  | [] => true
  | l :: ls => !l.leavesOpen ls && areClosed ls

/-- A text that leaves no quote and no comment open. -/
def IsClosed (sql : String) : Prop :=
  areClosed (lexemes sql.toList) = true

instance (sql : String) : Decidable (IsClosed sql) :=
  inferInstanceAs (Decidable (areClosed (lexemes sql.toList) = true))

/-! ## Behind a closed text and a blank -/

theorem avoids_append_blank
    {p : Char → Bool} {cs : List Char}
    (stop : Avoids p cs) (blank : p ' ' = false) (rest : List Char) :
    Avoids p (cs ++ ' ' :: rest) := by
  cases cs with
  | nil => exact avoids_cons.mpr blank
  | cons c cs => exact avoids_cons.mpr (avoids_cons.mp stop)

/-- A lexeme that leaves nothing open may still precede its text when a blank and anything else
are put behind that. -/
theorem Lexeme.mayPrecede_append_blank
    {l : Lexeme} {ls : List Lexeme}
    (stop : l.MayPrecede (sources ls))
    (spaced : Spaced ls)
    (closed : l.leavesOpen ls = false)
    (rest : List Char) :
    l.MayPrecede (sources ls ++ ' ' :: rest) := by
  cases l with
  | literal text => trivial
  | comment text =>
    intro isLine
    have someLexeme : ls ≠ [] := by
      rintro rfl
      simp [leavesOpen, isLine] at closed
    rcases List.exists_cons_of_ne_nil someLexeme with ⟨m, ms, rfl⟩
    rcases List.exists_cons_of_ne_nil spaced.1.source_ne_nil with ⟨c, tail, sourceEq⟩
    have ends := stop isLine
    rw [sources_cons, sourceEq] at ends ⊢
    exact avoids_cons.mpr (avoids_cons.mp ends)
  | questionPair second => trivial
  | named name => exact avoids_append_blank stop (by decide) rest
  | anonymous => exact avoids_append_blank stop (by decide) rest
  | numbered digits => exact avoids_append_blank stop (by decide) rest
  | plain c =>
    rcases stop with ⟨-, noHyphen, -, noDigit⟩
    simp only [leavesOpen, Bool.or_eq_false_iff, beq_eq_false_iff_ne,
      Bool.and_eq_false_iff] at closed
    rcases closed with ⟨⟨notDouble, notSingle⟩, notComment⟩
    refine ⟨?_, ?_, ?_, ?_⟩
    · intro quote
      rcases quote with rfl | rfl
      · exact (notDouble rfl).elim
      · exact (notSingle rfl).elim
    · intro hyphen
      exact avoids_append_blank (noHyphen hyphen) (by decide) rest
    · intro slash ds star
      rcases notComment with notSlash | notStar
      · exact (notSlash slash).elim
      · -- A star would be a lexeme of its own behind the slash.
        cases text : sources ls with
        | nil =>
          rw [text] at star
          cases star
        | cons d tail =>
          rw [text] at star
          cases star
          have read := lexemes_sources spaced
          rw [text, lexemes_star] at read
          rw [← read] at notStar
          exact (notStar rfl).elim
    · intro dollar
      exact avoids_append_blank (noDigit dollar) (by decide) rest

/-- A first lexeme that leaves nothing open is cut off in front of any text behind a blank. -/
theorem lexemes_cons_append_blank
    {l : Lexeme} {ls : List Lexeme}
    (spaced : Spaced (l :: ls))
    (closed : l.leavesOpen ls = false)
    (rest : List Char) :
    lexemes (sources (l :: ls) ++ ' ' :: rest) = l :: lexemes (sources ls ++ ' ' :: rest) := by
  rcases spaced with ⟨whole, stop, others⟩
  rcases List.exists_cons_of_ne_nil whole.source_ne_nil with ⟨c, tail, sourceEq⟩
  have same : l.source ++ (sources ls ++ ' ' :: rest) =
      c :: (tail ++ (sources ls ++ ' ' :: rest)) := by
    rw [sourceEq, List.cons_append]
  have goesOn := Lexeme.mayPrecede_append_blank stop others closed rest
  rw [sources_cons, List.append_assoc, same, lexemes,
    Lexeme.next_eq_iff.mpr ⟨same, whole, goesOn⟩]

/-- Behind a closed text and a blank the scanner starts anew. -/
theorem lexemes_append_blank
    {cs : List Char}
    (closed : areClosed (lexemes cs) = true)
    (rest : List Char) :
    lexemes (cs ++ ' ' :: rest) = lexemes cs ++ lexemes (' ' :: rest) := by
  have spaced := spaced_lexemes cs
  suffices every : ∀ ls, Spaced ls → areClosed ls = true →
      lexemes (sources ls ++ ' ' :: rest) = ls ++ lexemes (' ' :: rest) by
    simpa using every (lexemes cs) spaced closed
  intro ls spaced closed
  induction ls with
  | nil => rfl
  | cons l ls ih =>
    rw [areClosed, Bool.and_eq_true, Bool.not_eq_true'] at closed
    rw [lexemes_cons_append_blank spaced closed.1, ih spaced.2.2 closed.2, List.cons_append]

/-! ## Joining closed texts -/

/-- The number of question marks that are placeholders, on characters. -/
def questionCount (cs : List Char) : Nat :=
  (lexemes cs).countP Lexeme.isQuestion

theorem countQuestions_eq (sql : String) :
    countQuestions sql = questionCount sql.toList := rfl

@[simp]
theorem questionCount_nil : questionCount [] = 0 := by
  rw [questionCount, lexemes_nil, List.countP_nil]

/-- A character that stands for itself wherever it is scanned. -/
def isInert (c : Char) : Bool :=
  !(c == '"' || c == '\'' || c == '-' || c == '/' || c == '?' || c == '$')

theorem lexemes_inert
    {c : Char}
    (inert : isInert c = true)
    (cs : List Char) :
    lexemes (c :: cs) = .plain c :: lexemes cs := by
  simp only [isInert, Bool.not_eq_true', Bool.or_eq_false_iff, beq_eq_false_iff_ne] at inert
  rcases inert with ⟨⟨⟨⟨⟨notDouble, notSingle⟩, notHyphen⟩, notSlash⟩, notQuestion⟩, notDollar⟩
  have notQuote : ¬(c = '"' ∨ c = '\'') := by
    rintro (double | single)
    · exact notDouble double
    · exact notSingle single
  rw [lexemes, Lexeme.next_other cs notQuote notHyphen notSlash notQuestion notDollar]

/-- A run of characters that stand for themselves is cut into these characters. -/
theorem lexemes_append_inert
    {run : List Char}
    (inert : ∀ c ∈ run, isInert c = true)
    (cs : List Char) :
    lexemes (run ++ cs) = run.map .plain ++ lexemes cs := by
  induction run with
  | nil => rfl
  | cons c run ih =>
    have shorter := ih fun d member => inert d (List.mem_cons_of_mem c member)
    rw [List.cons_append, lexemes_inert (inert c List.mem_cons_self), shorter]
    rfl

/-- Behind a closed text and the conjunction the scanner starts anew. -/
theorem lexemes_append_conjunction
    {cs : List Char}
    (closed : areClosed (lexemes cs) = true)
    (rest : List Char) :
    lexemes (cs ++ Clause.conjunction.toList ++ rest) =
      lexemes cs ++ (Clause.conjunction.toList.map .plain ++ lexemes rest) := by
  have inert : ∀ c ∈ Clause.conjunction.toList, isInert c = true :=
    List.all_eq_true.mp (by decide)
  have blank : Clause.conjunction.toList ++ rest = ' ' :: ("and ".toList ++ rest) := rfl
  rw [← lexemes_append_inert inert, List.append_assoc, blank, lexemes_append_blank closed]

/-- Joining a text to a closed one adds up the placeholders. -/
theorem questionCount_conjunction
    {cs : List Char}
    (closed : areClosed (lexemes cs) = true)
    (rest : List Char) :
    questionCount (cs ++ Clause.conjunction.toList ++ rest) =
      questionCount cs + questionCount rest := by
  have none : (Clause.conjunction.toList.map Lexeme.plain).countP Lexeme.isQuestion = 0 := by
    decide
  rw [questionCount, lexemes_append_conjunction closed, List.countP_append, List.countP_append,
    none, Nat.zero_add]
  rfl

/-- The placeholders of joined texts add up when all texts but the last are closed. -/
theorem countQuestions_intercalate
    (texts : List String)
    (closed : ∀ text ∈ texts.dropLast, IsClosed text) :
    countQuestions (Clause.conjunction.intercalate texts) =
      (texts.map countQuestions).sum := by
  induction texts with
  | nil => exact questionCount_nil
  | cons text texts ih =>
    cases texts with
    | nil => simp
    | cons second texts =>
      have firstClosed := closed text (by simp)
      have others := ih fun other member => closed other (by simp [member])
      rw [String.intercalate_cons_cons, countQuestions_eq, String.toList_append,
        String.toList_append, questionCount_conjunction firstClosed, ← countQuestions_eq,
        ← countQuestions_eq, others, ← List.sum_cons, ← List.map_cons]

/-! ## Joining texts that are not closed -/

theorem closeQuote_run
    {quote : Char} {run : List Char}
    (noQuote : quote ∉ run)
    (noEscape : '\\' ∉ run)
    (rest : List Char) :
    closeQuote quote (run ++ quote :: rest) = some (run ++ [quote], rest) := by
  induction run with
  | nil => exact closeQuote_quote rest
  | cons c run ih =>
    rw [List.mem_cons, not_or] at noQuote noEscape
    rw [List.cons_append, closeQuote_other (Ne.symm noQuote.1) (Ne.symm noEscape.1),
      ih noQuote.2 noEscape.2]
    rfl

/-- A quote that is open at the end of a text is closed by the next mark of its kind. -/
theorem closeQuote_append_of_open
    {quote : Char} {cs middle : List Char}
    (unclosed : closeQuote quote cs = none)
    (blank : ' ' ≠ quote)
    (noQuote : quote ∉ middle)
    (noEscape : '\\' ∉ middle)
    (rest : List Char) :
    ∃ text, closeQuote quote (cs ++ ' ' :: (middle ++ quote :: rest)) = some (text, rest) := by
  have inMiddle := closeQuote_run noQuote noEscape rest
  fun_induction closeQuote quote cs with
  | case1 =>
    rw [List.nil_append, closeQuote_other blank (by decide), inMiddle]
    exact ⟨_, rfl⟩
  | case2 => cases unclosed
  | case3 notQuote =>
    rw [List.cons_append, List.nil_append, closeQuote_escape notQuote, inMiddle]
    exact ⟨_, rfl⟩
  | case4 d ds notQuote ih =>
    rcases ih (Option.map_eq_none_iff.mp unclosed) with ⟨text, found⟩
    rw [List.cons_append, List.cons_append, closeQuote_escape notQuote, found]
    exact ⟨_, rfl⟩
  | case5 c cs notQuote notEscape ih =>
    rcases ih (Option.map_eq_none_iff.mp unclosed) with ⟨text, found⟩
    rw [List.cons_append, closeQuote_other notQuote notEscape, found]
    exact ⟨_, rfl⟩

theorem closeComment_run
    {run : List Char}
    (noStar : '*' ∉ run)
    (rest : List Char) :
    closeComment (run ++ '*' :: '/' :: rest) = some (run ++ ['*', '/'], rest) := by
  induction run with
  | nil => rfl
  | cons c run ih =>
    rw [List.mem_cons, not_or] at noStar
    rw [List.cons_append, closeComment_other fun ds star => absurd star.symm noStar.1,
      ih noStar.2]
    rfl

/-- A block comment that is open at the end of a text is closed by the next end mark. -/
theorem closeComment_append_of_open
    {cs middle : List Char}
    (unclosed : closeComment cs = none)
    (noStar : '*' ∉ middle)
    (rest : List Char) :
    ∃ text, closeComment (cs ++ ' ' :: (middle ++ '*' :: '/' :: rest)) = some (text, rest) := by
  have inMiddle := closeComment_run noStar rest
  fun_induction closeComment cs with
  | case1 =>
    rw [List.nil_append, closeComment_other (by simp), inMiddle]
    exact ⟨_, rfl⟩
  | case2 => cases unclosed
  | case3 c cs notMark ih =>
    rcases ih (Option.map_eq_none_iff.mp unclosed) with ⟨text, found⟩
    have stillNotMark : ∀ ds, c = '*' →
        cs ++ ' ' :: (middle ++ '*' :: '/' :: rest) = '/' :: ds → False := by
      intro ds star slash
      cases cs with
      | nil => cases slash
      | cons d cs =>
        cases slash
        exact notMark cs star rfl
    rw [List.cons_append, closeComment_other stillNotMark, found]
    exact ⟨_, rfl⟩

/-- Closed texts with one placeholder each, of which one closes whatever is left open. -/
def closers : List String :=
  ["? = ''", "? = \"\"", "? = '*/'", "?"]

theorem isClosed_of_mem_closers
    {text : String}
    (member : text ∈ closers) :
    IsClosed text ∧ countQuestions text = 1 := by
  revert text
  decide +kernel

/-- A quote left open swallows a placeholder up to the next mark of its kind. -/
theorem questionCount_of_openQuote
    {quote : Char} {cs : List Char}
    (isQuote : quote = '"' ∨ quote = '\'')
    (unclosed : closeQuote quote cs = none) :
    questionCount (quote :: (cs ++ " and ? = ".toList ++ [quote, quote])) = 0 := by
  have alone : questionCount [quote] = 0 := by
    rcases isQuote with rfl | rfl <;> decide +kernel
  have noQuote : quote ∉ "and ? = ".toList := by
    rcases isQuote with rfl | rfl <;> decide
  have noEscape : '\\' ∉ "and ? = ".toList := by decide
  have blank : ' ' ≠ quote := by
    rcases isQuote with rfl | rfl <;> decide
  rcases closeQuote_append_of_open unclosed blank noQuote noEscape [quote] with ⟨text, found⟩
  have whole : cs ++ " and ? = ".toList ++ [quote, quote] =
      cs ++ ' ' :: ("and ? = ".toList ++ quote :: [quote]) := by
    rw [List.append_assoc]
    rfl
  rw [whole, questionCount, lexemes, Lexeme.next_quote isQuote, Lexeme.ofQuote, found]
  exact alone

/-- A block comment left open swallows a placeholder up to the next end mark. -/
theorem questionCount_of_openComment
    {cs : List Char}
    (unclosed : closeComment cs = none) :
    questionCount ('/' :: '*' :: (cs ++ " and ? = '*/'".toList)) = 0 := by
  have alone : questionCount ['\''] = 0 := by decide +kernel
  have noStar : '*' ∉ "and ? = '".toList := by decide
  rcases closeComment_append_of_open unclosed noStar ['\''] with ⟨text, found⟩
  have whole : cs ++ " and ? = '*/'".toList =
      cs ++ ' ' :: ("and ? = '".toList ++ '*' :: '/' :: ['\'']) := rfl
  rw [whole, questionCount, lexemes, Lexeme.next_slash, Lexeme.ofSlash, found]
  exact alone

/-- A line comment at the end of a text swallows a placeholder on the same line. -/
theorem questionCount_of_openLine
    {body : List Char}
    (inside : ∀ c ∈ body, inLine c = true) :
    questionCount ('-' :: '-' :: (body ++ " and ?".toList)) = 0 := by
  have added : ∀ c ∈ " and ?".toList, inLine c = true := List.all_eq_true.mp (by decide)
  have longer : ∀ c ∈ body ++ " and ?".toList, inLine c = true := by
    intro c member
    rcases List.mem_append.mp member with old | new
    · exact inside c old
    · exact added c new
  have whole : (Lexeme.comment ('-' :: '-' :: (body ++ " and ?".toList))).IsWhole :=
    Or.inl ⟨_, rfl, longer⟩
  have spaced : Spaced [.comment ('-' :: '-' :: (body ++ " and ?".toList))] :=
    ⟨whole, fun _ => avoids_nil, trivial⟩
  have read := lexemes_sources spaced
  rw [sources_cons, sources_nil, List.append_nil] at read
  exact (congrArg (List.countP Lexeme.isQuestion) read).trans rfl

/-- Where the first lexeme leaves a quote or a comment open, one of the closers loses its
placeholder to it. -/
theorem questionCount_closer
    {l : Lexeme} {ls : List Lexeme}
    (spaced : Spaced (l :: ls))
    (unclosed : l.leavesOpen ls = true) :
    ∃ text ∈ closers,
      questionCount (sources (l :: ls) ++ Clause.conjunction.toList ++ text.toList) = 0 := by
  rcases spaced with ⟨whole, stop, others⟩
  cases l with
  | comment text =>
    simp only [Lexeme.leavesOpen, Bool.and_eq_true, beq_iff_eq, List.isEmpty_iff] at unclosed
    rcases unclosed with ⟨isLine, rfl⟩
    rcases whole with ⟨body, rfl, inside⟩ | ⟨body, rfl, -⟩
    · refine ⟨"?", by decide, ?_⟩
      have swallowed := questionCount_of_openLine inside
      simpa [Lexeme.source, Clause.conjunction] using swallowed
    · cases isLine
  | plain c =>
    rcases stop with ⟨noQuote, -, noComment, -⟩
    simp only [Lexeme.leavesOpen, Bool.or_eq_true, beq_iff_eq, Bool.and_eq_true] at unclosed
    rcases unclosed with isQuote | ⟨rfl, star⟩
    · have swallowed := questionCount_of_openQuote isQuote (noQuote isQuote)
      rcases isQuote with rfl | rfl
      · refine ⟨"? = \"\"", by decide, ?_⟩
        simpa [Lexeme.source, Clause.conjunction] using swallowed
      · refine ⟨"? = ''", by decide, ?_⟩
        simpa [Lexeme.source, Clause.conjunction] using swallowed
    · refine ⟨"? = '*/'", by decide, ?_⟩
      cases ls with
      | nil => cases star
      | cons m ms =>
        cases star
        have swallowed := questionCount_of_openComment (noComment rfl (sources ms) rfl)
        simpa [Lexeme.source, Clause.conjunction] using swallowed
  | literal text => cases unclosed
  | questionPair second => cases unclosed
  | named name => cases unclosed
  | anonymous => cases unclosed
  | numbered digits => cases unclosed

/-- A text that is not closed hides the placeholder of some closed text that is joined to it. -/
theorem exists_hidden_question
    {cs : List Char}
    (unclosed : areClosed (lexemes cs) = false) :
    ∃ text ∈ closers,
      questionCount (cs ++ Clause.conjunction.toList ++ text.toList) ≤ questionCount cs := by
  suffices every : ∀ ls, Spaced ls → areClosed ls = false → ∃ text ∈ closers,
      questionCount (sources ls ++ Clause.conjunction.toList ++ text.toList) ≤
        ls.countP Lexeme.isQuestion by
    rw [questionCount]
    simpa using every (lexemes cs) (spaced_lexemes cs) unclosed
  intro ls spaced unclosed
  induction ls with
  | nil => cases unclosed
  | cons l ls ih =>
    cases opens : l.leavesOpen ls with
    | true =>
      rcases questionCount_closer spaced opens with ⟨text, member, hidden⟩
      exact ⟨text, member, hidden ▸ Nat.zero_le _⟩
    | false =>
      rw [areClosed, opens] at unclosed
      rcases ih spaced.2.2 (by simpa using unclosed) with ⟨text, member, fewer⟩
      refine ⟨text, member, ?_⟩
      have blank : Clause.conjunction.toList ++ text.toList =
          ' ' :: ("and ".toList ++ text.toList) := rfl
      rw [List.append_assoc, blank] at fewer ⊢
      rw [questionCount, lexemes_cons_append_blank spaced opens, List.countP_cons,
        List.countP_cons]
      exact Nat.add_le_add_right fewer _

end LedgerQuery.Sql
