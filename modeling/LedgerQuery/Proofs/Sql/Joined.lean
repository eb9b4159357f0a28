import LedgerQuery.Proofs.Sql.Relabel

/-!
# Digits behind numbered placeholders

A numbered placeholder takes all digits that stand behind its dollar sign.  Where
a number is put in the place of an anonymous question mark with digits behind it,
these digits become part of the placeholder.  `joined` says this on lexemes.

The main statement is that a text under new labels is read back as the relabelled
lexemes after this joining, whatever the text and the numbers are.  Where no digit
stands behind an anonymous question mark nothing is joined.
-/

namespace LedgerQuery.Sql

namespace Lexeme

/-- A single character that is a decimal digit. -/
def isPlainDigit : Lexeme → Bool
  | plain c => Text.isDigit c
  | _ => false

/-- A lexeme in front of others; a numbered placeholder takes the digits they begin with. -/
def join : Lexeme → List Lexeme → List Lexeme
  | numbered digits, ls =>
    numbered (digits ++ sources (ls.takeWhile isPlainDigit)) :: ls.dropWhile isPlainDigit
  | l, ls => l :: ls

end Lexeme

/-- Lexemes of which each numbered placeholder takes the digits behind it. -/
def joined : List Lexeme → List Lexeme
  | [] => []
  | l :: ls => l.join (joined ls)

/-- No digit stands directly behind a question mark. -/
def Unglued : List Lexeme → Prop
  | [] => True
  | l :: ls => (l = .anonymous → Avoids Text.isDigit (sources ls)) ∧ Unglued ls

/-! ## The digits that a text begins with -/

/-- Only a digit begins with a digit. -/
theorem avoids_digit_of_not_isPlainDigit
    {l : Lexeme} (whole : l.IsWhole) (other : l.isPlainDigit = false) (rest : List Char) :
    Avoids Text.isDigit (l.source ++ rest) := by
  cases l with
  | literal text =>
    rcases whole with ⟨quote, body, rfl | rfl, rfl, -⟩ <;> exact avoids_cons.mpr (by decide)
  | comment text =>
    rcases whole with ⟨body, rfl, -⟩ | ⟨body, rfl, -⟩ <;> exact avoids_cons.mpr (by decide)
  | questionPair second | named name | anonymous => exact avoids_cons.mpr (by decide)
  | numbered digits => exact avoids_cons.mpr (by decide)
  | plain c => exact avoids_cons.mpr other

theorem isPlainDigit_eq_false_of_avoids
    {l : Lexeme} {ls : List Lexeme} (avoids : Avoids Text.isDigit (sources (l :: ls))) :
    l.isPlainDigit = false := by
  cases l with
  | plain c => exact avoids_cons.mp avoids
  | literal text | comment text | questionPair second | named name | anonymous
  | numbered digits => rfl

theorem eq_plain_of_isPlainDigit
    {l : Lexeme} (digit : l.isPlainDigit = true) :
    ∃ c, l = .plain c ∧ Text.isDigit c = true := by
  cases l with
  | plain c => exact ⟨c, rfl, digit⟩
  | literal text | comment text | questionPair second | named name | anonymous
  | numbered digits => cases digit

/-- The digits that whole lexemes begin with are those that their text begins with. -/
theorem sources_takeWhile_isPlainDigit
    {ls : List Lexeme} (spaced : Spaced ls) :
    sources (ls.takeWhile Lexeme.isPlainDigit) = (sources ls).takeWhile Text.isDigit := by
  induction ls with
  | nil => rfl
  | cons l ls ih =>
    cases digit : l.isPlainDigit with
    | true =>
      rcases eq_plain_of_isPlainDigit digit with ⟨c, rfl, isDigit⟩
      rw [List.takeWhile_cons_of_pos digit, sources_cons, sources_cons, ih spaced.2.2]
      exact (List.takeWhile_cons_of_pos isDigit).symm
    | false =>
      have stop := avoids_digit_of_not_isPlainDigit spaced.1 digit (sources ls)
      rw [List.takeWhile_cons_of_neg (by simp [digit]), sources_cons,
        takeWhile_eq_nil_iff_avoids.mpr stop, sources_nil]

theorem avoids_digit_dropWhile
    {ls : List Lexeme} (spaced : Spaced ls) :
    Avoids Text.isDigit (sources (ls.dropWhile Lexeme.isPlainDigit)) := by
  induction ls with
  | nil => exact avoids_nil
  | cons l ls ih =>
    cases digit : l.isPlainDigit with
    | true =>
      rw [List.dropWhile_cons_of_pos digit]
      exact ih spaced.2.2
    | false =>
      rw [List.dropWhile_cons_of_neg (by simp [digit])]
      exact avoids_digit_of_not_isPlainDigit spaced.1 digit (sources ls)

theorem Spaced.dropWhile
    {ls : List Lexeme} (spaced : Spaced ls) (p : Lexeme → Bool) :
    Spaced (ls.dropWhile p) := by
  induction ls with
  | nil => trivial
  | cons l ls ih =>
    rw [List.dropWhile_cons]
    split
    · exact ih spaced.2.2
    · exact spaced

/-! ## Joining -/

/-- Joining does not change the text. -/
theorem sources_join (l : Lexeme) (ls : List Lexeme) :
    sources (l.join ls) = l.source ++ sources ls := by
  cases l with
  | numbered digits =>
    rw [Lexeme.join, sources_cons, Lexeme.source, Lexeme.source, List.cons_append,
      List.append_assoc, ← sources_append, List.takeWhile_append_dropWhile, List.cons_append]
  | literal text | comment text | questionPair second | named name | anonymous | plain c => rfl

theorem sources_joined (ls : List Lexeme) : sources (joined ls) = sources ls := by
  induction ls with
  | nil => rfl
  | cons l ls ih => rw [joined, sources_join, ih, sources_cons]

/-- Nothing is joined to a lexeme that may stand where it stands. -/
theorem join_of_mayPrecede
    {l : Lexeme} {ls : List Lexeme} (stop : l.MayPrecede (sources ls)) :
    l.join ls = l :: ls := by
  cases l with
  | numbered digits =>
    cases ls with
    | nil => simp [Lexeme.join]
    | cons m ms => simp [Lexeme.join, isPlainDigit_eq_false_of_avoids stop]
  | literal text | comment text | questionPair second | named name | anonymous | plain c => rfl

theorem joined_of_spaced
    {ls : List Lexeme} (spaced : Spaced ls) :
    joined ls = ls := by
  induction ls with
  | nil => rfl
  | cons l ls ih => rw [joined, ih spaced.2.2, join_of_mayPrecede spaced.2.1]

/-! ## Reading relabelled text back -/

/-- Nothing is joined to a lexeme that keeps its label. -/
theorem joined_relabel_other
    {l : Lexeme} {ls : List Lexeme} (spaced : Spaced (l :: ls)) (other : l.isQuestion = false)
    (ns : List Nat) :
    joined (relabel ns (l :: ls)) = l :: joined (relabel ns ls) := by
  have stop := mayPrecede_relabel other spaced.2.2 spaced.2.1 ns
  rw [← sources_joined] at stop
  rw [relabel_other other, joined, join_of_mayPrecede stop]

/-- New labels go together again once the digits behind them are joined to them. -/
theorem spaced_joined_relabel
    {ls : List Lexeme} (spaced : Spaced ls)
    (ns : List Nat) :
    Spaced (joined (relabel ns ls)) := by
  induction ls generalizing ns with
  | nil => trivial
  | cons l ls ih =>
    have behind := ih spaced.2.2
    cases question : l.isQuestion with
    | false =>
      have stop := mayPrecede_relabel question spaced.2.2 spaced.2.1 ns
      rw [← sources_joined] at stop
      rw [joined_relabel_other spaced question]
      exact ⟨spaced.1, stop, behind ns⟩
    | true =>
      cases ns with
      | nil =>
        rw [relabel_no_numbers, joined_of_spaced spaced]
        exact spaced
      | cons n ns =>
        rw [relabel_question question, joined, Lexeme.join,
          sources_takeWhile_isPlainDigit (behind ns)]
        refine ⟨⟨?_, ?_⟩, avoids_digit_dropWhile (behind ns), (behind ns).dropWhile _⟩
        · exact List.append_ne_nil_of_left_ne_nil (Numeral.decimal_ne_nil n) _
        · intro d member
          rcases List.mem_append.mp member with own | taken
          · exact Numeral.isDigit_of_mem_decimal own
          · exact all_takeWhile Text.isDigit _ d taken

/-- New labels do not change the digits that a text begins with. -/
theorem takeWhile_isDigit_relabel
    {ls : List Lexeme} (spaced : Spaced ls)
    (ns : List Nat) :
    (sources (relabel ns ls)).takeWhile Text.isDigit = (sources ls).takeWhile Text.isDigit := by
  induction ls generalizing ns with
  | nil => rw [relabel_nil]
  | cons l ls ih =>
    cases digit : l.isPlainDigit with
    | true =>
      rcases eq_plain_of_isPlainDigit digit with ⟨c, rfl, isDigit⟩
      have kept := ih spaced.2.2 ns
      rw [relabel_other rfl, sources_cons, sources_cons]
      exact (List.takeWhile_cons_of_pos isDigit).trans
        ((congrArg (List.cons c) kept).trans (List.takeWhile_cons_of_pos isDigit).symm)
    | false =>
      have stop := avoids_digit_of_not_isPlainDigit spaced.1 digit (sources ls)
      have stillStop := (avoids_relabel (by decide) spaced ns).mpr stop
      rw [takeWhile_eq_nil_iff_avoids.mpr stillStop, sources_cons,
        takeWhile_eq_nil_iff_avoids.mpr stop]

/-- A new label takes the digits that stood behind the old one. -/
theorem joined_relabel_question
    {l : Lexeme} {ls : List Lexeme} (spaced : Spaced ls) (question : l.isQuestion = true)
    (n : Nat) (ns : List Nat) :
    joined (relabel (n :: ns) (l :: ls)) =
      .numbered (Numeral.decimal n ++ (sources ls).takeWhile Text.isDigit) ::
        (joined (relabel ns ls)).dropWhile Lexeme.isPlainDigit := by
  rw [relabel_question question, joined, Lexeme.join,
    sources_takeWhile_isPlainDigit (spaced_joined_relabel spaced ns), sources_joined,
    takeWhile_isDigit_relabel spaced]

/-- The text under new labels is read back as the lexemes with these labels, to which the digits
behind them are joined. -/
theorem lexemes_relabel_eq_joined (cs : List Char) (ns : List Nat) :
    lexemes (sources (relabel ns (lexemes cs))) = joined (relabel ns (lexemes cs)) := by
  rw [← sources_joined, lexemes_sources (spaced_joined_relabel (spaced_lexemes cs) ns)]

/-- Behind a question-mark placeholder stands no digit, unless it is glued to an anonymous one. -/
theorem avoids_digit_of_question
    {l : Lexeme} (question : l.isQuestion = true)
    {ls : List Lexeme}
    (stop : l.MayPrecede (sources ls))
    (unglued : l = .anonymous → Avoids Text.isDigit (sources ls)) :
    Avoids Text.isDigit (sources ls) := by
  rcases eq_of_isQuestion question with rfl | ⟨name, rfl⟩
  · exact unglued rfl
  · intro c member
    have notWord := stop c member
    cases digit : Text.isDigit c with
    | false => rfl
    | true =>
      rw [isWord_of_isDigit digit] at notWord
      cases notWord

theorem joined_relabel_of_unglued
    {ls : List Lexeme} (spaced : Spaced ls) (unglued : Unglued ls)
    (ns : List Nat) :
    joined (relabel ns ls) = relabel ns ls := by
  induction ls generalizing ns with
  | nil => rfl
  | cons l ls ih =>
    have others := spaced.2.2
    cases question : l.isQuestion with
    | false =>
      rw [joined_relabel_other spaced question, ih others unglued.2, relabel_other question]
    | true =>
      cases ns with
      | nil => rw [relabel_no_numbers, joined_of_spaced spaced]
      | cons n ns =>
        have noDigit := avoids_digit_of_question question spaced.2.1 unglued.1
        rw [relabel_question question, joined, ih others unglued.2]
        exact join_of_mayPrecede ((avoids_relabel (by decide) others ns).mpr noDigit)

/-- Where no digit is glued to a question mark, the text under new labels is read back as the
lexemes with these labels. -/
theorem lexemes_relabel
    {cs : List Char}
    (unglued : Unglued (lexemes cs))
    (ns : List Nat) :
    lexemes (sources (relabel ns (lexemes cs))) = relabel ns (lexemes cs) := by
  rw [lexemes_relabel_eq_joined, joined_relabel_of_unglued (spaced_lexemes cs) unglued]

end LedgerQuery.Sql
