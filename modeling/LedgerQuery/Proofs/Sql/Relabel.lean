import LedgerQuery.Proofs.Numeral.Decimal
import LedgerQuery.Proofs.Sql.Spacing
import LedgerQuery.Sql.Placeholder
import Mathlib

/-!
# Placeholders under new labels

Rendering puts numbered placeholders in the place of question marks and touches
nothing else.  This module says so without the numbering: `relabel` takes the
numbers as a list.  The main statement is that a lexeme other than a question mark
may stand in front of the new text where it may stand in front of the old one:
no quote or comment is opened or closed by the labels, whatever the numbers are.
-/

namespace LedgerQuery.Sql

/-- The question-mark placeholders replaced by numbered ones, with the numbers in order. -/
def relabel : List Nat → List Lexeme → List Lexeme
  | _, [] => []
  | ns, l :: ls =>
    match l.isQuestion, ns with
    | true, n :: ns => .numbered (Numeral.decimal n) :: relabel ns ls
    | _, ns => l :: relabel ns ls

/-- The names of the named placeholders, in order. -/
def names (ls : List Lexeme) : List (List Char) :=
  ls.filterMap fun l =>
    match l with
    | .named name => some name
    | _ => none

/-- A question-mark placeholder is anonymous or has a name. -/
theorem eq_of_isQuestion
    {l : Lexeme} (question : l.isQuestion = true) :
    l = .anonymous ∨ ∃ name, l = .named name := by
  cases l with
  | anonymous => exact Or.inl rfl
  | named name => exact Or.inr ⟨name, rfl⟩
  | literal text | comment text | questionPair second | numbered digits | plain c => cases question

@[simp]
theorem relabel_nil (ns : List Nat) : relabel ns [] = [] := rfl

theorem relabel_question
    {l : Lexeme}
    (question : l.isQuestion = true) (n : Nat) (ns : List Nat) (ls : List Lexeme) :
    relabel (n :: ns) (l :: ls) = .numbered (Numeral.decimal n) :: relabel ns ls := by
  simp [relabel, question]

theorem relabel_other
    {l : Lexeme}
    (other : l.isQuestion = false) (ns : List Nat) (ls : List Lexeme) :
    relabel ns (l :: ls) = l :: relabel ns ls := by
  simp [relabel, other]

@[simp]
theorem relabel_no_numbers (ls : List Lexeme) : relabel [] ls = ls := by
  induction ls with
  | nil => rfl
  | cons l ls ih =>
    have kept : relabel [] (l :: ls) = l :: relabel [] ls := by simp [relabel]
    rw [kept, ih]

/-! ## Characters of placeholders -/

theorem digits_are_words :
    (Text.digitZeros.all fun first => Text.wordRanges.any fun range =>
      range.1 ≤ first && first + 9 ≤ range.2) = true := by
  decide +kernel

/-- Every decimal digit is a word character. -/
theorem isWord_of_isDigit
    {c : Char}
    (digit : Text.isDigit c = true) :
    Text.isWord c = true := by
  rcases Numeral.toNat_of_isDigit digit with ascii | ⟨notAscii, first, member, inside⟩
  · have isDigit : c.isDigit = true := Char.isDigit_iff_toNat.mpr ascii
    rw [Text.isWord, Text.holdsAt_ascii (by omega), Char.isAlphanum, isDigit, Bool.or_true,
      Bool.true_or]
  · have someRange := List.all_eq_true.mp digits_are_words first member
    simp only [List.any_eq_true, Bool.and_eq_true, decide_eq_true_eq] at someRange
    rcases someRange with ⟨range, rangeMember, low, high⟩
    simp only [Text.isWord, Text.holdsAt, notAscii, if_false, Text.inRanges, List.any_eq_true,
      Bool.and_eq_true, decide_eq_true_eq]
    exact ⟨range, rangeMember, by omega, by omega⟩

theorem isWord_of_isNameStart
    {c : Char}
    (start : Text.isNameStart c = true) :
    Text.isWord c = true := by
  have small : c.toNat < 128 := by
    simp only [Text.isNameStart, Char.isAlpha, Char.isUpper, Char.isLower, Bool.or_eq_true,
      Bool.and_eq_true, decide_eq_true_eq, beq_iff_eq, UInt32.le_iff_toNat_le] at start
    rcases start with (upper | lower) | rfl
    · exact Nat.lt_of_le_of_lt upper.2 (by decide)
    · exact Nat.lt_of_le_of_lt lower.2 (by decide)
    · decide
  rw [Text.isWord, Text.holdsAt_ascii small]
  simp only [Text.isNameStart, Bool.or_eq_true] at start
  rcases start with letter | line
  · simp [Char.isAlphanum, letter]
  · simp [line]

/-! ## Whether an opening is closed -/

/-- Whether characters lead a machine of two states to its end. -/
def reachesEnd (step : Bool → Char → Option Bool) : Bool → List Char → Bool
  | _, [] => false
  | state, c :: cs =>
    match step state c with
    | none => true
    | some next => reachesEnd step next cs

/-- Looks for a closing quote; the state says whether a backslash stands in front. -/
def quoteStep (quote : Char) (escaped : Bool) (c : Char) : Option Bool :=
  if escaped then some false
  else if c = quote then none
  else some (c == '\\')

/-- Looks for the end of a block comment; the state says whether a star stands in front. -/
def commentStep (starred : Bool) (c : Char) : Option Bool :=
  if starred && c == '/' then none else some (c == '*')

theorem isSome_closeQuote (quote : Char) (cs : List Char) :
    (closeQuote quote cs).isSome = reachesEnd (quoteStep quote) false cs := by
  fun_induction closeQuote quote cs with
  | case1 => rfl
  | case2 cs => simp [reachesEnd, quoteStep]
  | case3 notQuote => simp [reachesEnd, quoteStep, notQuote]
  | case4 d ds notQuote ih => simp [reachesEnd, quoteStep, notQuote, ih]
  | case5 c cs notQuote notEscape ih =>
    have notBackslash : (c == '\\') = false := beq_eq_false_iff_ne.mpr notEscape
    simp [reachesEnd, quoteStep, notQuote, notBackslash, ih]

theorem isSome_closeComment (cs : List Char) :
    (closeComment cs).isSome = reachesEnd commentStep false cs := by
  fun_induction closeComment cs with
  | case1 => rfl
  | case2 ds => rfl
  | case3 c cs notMark ih =>
    rw [Option.isSome_map, ih]
    cases cs with
    | nil => simp [reachesEnd, commentStep]
    | cons d cs =>
      by_cases star : c = '*'
      · have notSlash : d ≠ '/' := by
          rintro rfl
          exact notMark cs star rfl
        simp [reachesEnd, commentStep, star, notSlash]
      · simp [reachesEnd, commentStep, star]

/-- A run of characters, none of which means anything to a machine, puts it back into its first
state. -/
theorem reachesEnd_append_of_bland
    {step : Bool → Char → Option Bool} {run : List Char}
    (bland : ∀ c ∈ run, ∀ state, step state c = some false)
    (someCharacter : run ≠ [])
    (state : Bool) (cs : List Char) :
    reachesEnd step state (run ++ cs) = reachesEnd step false cs := by
  induction run generalizing state with
  | nil => exact (someCharacter rfl).elim
  | cons c run ih =>
    rw [List.cons_append, reachesEnd, bland c List.mem_cons_self state]
    cases run with
    | nil => rfl
    | cons d run =>
      exact ih (fun e member => bland e (List.mem_cons_of_mem c member)) (List.cons_ne_nil d run)
        false

/-- Texts with a common beginning agree where what follows agrees. -/
theorem reachesEnd_append_congr
    {step : Bool → Char → Option Bool} {cs ds : List Char}
    (same : ∀ state, reachesEnd step state cs = reachesEnd step state ds)
    (head : List Char) (state : Bool) :
    reachesEnd step state (head ++ cs) = reachesEnd step state (head ++ ds) := by
  induction head generalizing state with
  | nil => exact same state
  | cons c head ih =>
    rw [List.cons_append, List.cons_append, reachesEnd, reachesEnd]
    cases step state c with
    | none => rfl
    | some next => exact ih next

/-- A machine to which the characters of placeholders mean nothing. -/
structure IgnoresPlaceholders (step : Bool → Char → Option Bool) : Prop where
  question : ∀ state, step state '?' = some false
  dollar : ∀ state, step state '$' = some false
  word : ∀ c, Text.isWord c = true → ∀ state, step state c = some false

theorem ne_of_isWord
    {c d : Char}
    (word : Text.isWord c = true) (notWord : Text.isWord d = false) :
    c ≠ d := by
  rintro rfl
  rw [word] at notWord
  cases notWord

theorem ignoresPlaceholders_quoteStep
    {quote : Char} (isQuote : quote = '"' ∨ quote = '\'') :
    IgnoresPlaceholders (quoteStep quote) where
  question := by rcases isQuote with rfl | rfl <;> decide
  dollar := by rcases isQuote with rfl | rfl <;> decide
  word := by
    intro c word state
    have notQuote : c ≠ quote := by
      rcases isQuote with rfl | rfl <;> exact ne_of_isWord word (by decide)
    have notEscape : c ≠ '\\' := ne_of_isWord word (by decide)
    cases state <;> simp [quoteStep, notQuote, notEscape]

theorem ignoresPlaceholders_commentStep : IgnoresPlaceholders commentStep where
  question := by decide
  dollar := by decide
  word := by
    intro c word state
    have notSlash : c ≠ '/' := ne_of_isWord word (by decide)
    have notStar : c ≠ '*' := ne_of_isWord word (by decide)
    simp [commentStep, notSlash, notStar]

section Relabelled

variable {step : Bool → Char → Option Bool} (ignores : IgnoresPlaceholders step)

include ignores

theorem bland_numbered (n : Nat) :
    ∀ c ∈ (Lexeme.numbered (Numeral.decimal n)).source, ∀ state, step state c = some false := by
  intro c member
  rcases List.mem_cons.mp member with rfl | digit
  · exact ignores.dollar
  · exact ignores.word c (isWord_of_isDigit (Numeral.isDigit_of_mem_decimal digit))

theorem bland_of_isQuestion
    {l : Lexeme}
    (question : l.isQuestion = true)
    (whole : l.IsWhole) :
    ∀ c ∈ l.source, ∀ state, step state c = some false := by
  intro c member
  rcases eq_of_isQuestion question with rfl | ⟨name, rfl⟩
  · rw [List.mem_singleton.mp member]
    exact ignores.question
  · rcases whole with ⟨first, more, rfl, start, inside⟩
    rcases List.mem_cons.mp member with rfl | member
    · exact ignores.question
    rcases List.mem_cons.mp member with rfl | member
    · exact ignores.word c (isWord_of_isNameStart start)
    · exact ignores.word c (inside c member)

/-- A machine to which the characters of placeholders mean nothing does not see new labels. -/
theorem reachesEnd_relabel
    {ls : List Lexeme} (spaced : Spaced ls)
    (ns : List Nat) (state : Bool) :
    reachesEnd step state (sources (relabel ns ls)) = reachesEnd step state (sources ls) := by
  induction ls generalizing ns state with
  | nil => rw [relabel_nil]
  | cons l ls ih =>
    cases question : l.isQuestion with
    | false =>
      rw [relabel_other question, sources_cons, sources_cons]
      exact reachesEnd_append_congr (ih spaced.2.2 ns) l.source state
    | true =>
      cases ns with
      | nil => rw [relabel_no_numbers]
      | cons n ns =>
        have oldBland := bland_of_isQuestion ignores question spaced.1
        have newBland := bland_numbered ignores n
        rw [relabel_question question, sources_cons, sources_cons,
          reachesEnd_append_of_bland newBland (List.cons_ne_nil _ _),
          reachesEnd_append_of_bland oldBland spaced.1.source_ne_nil]
        exact ih spaced.2.2 ns false

end Relabelled

theorem closeQuote_relabel
    {quote : Char} (isQuote : quote = '"' ∨ quote = '\'')
    {ls : List Lexeme} (spaced : Spaced ls)
    (unclosed : closeQuote quote (sources ls) = none)
    (ns : List Nat) :
    closeQuote quote (sources (relabel ns ls)) = none := by
  have notOver := isSome_closeQuote quote (sources ls)
  rw [unclosed, ← reachesEnd_relabel (ignoresPlaceholders_quoteStep isQuote) spaced ns,
    ← isSome_closeQuote] at notOver
  exact Option.not_isSome_iff_eq_none.mp (by simp [← notOver])

theorem closeComment_relabel
    {ls : List Lexeme} (spaced : Spaced ls)
    (unclosed : closeComment (sources ls) = none)
    (ns : List Nat) :
    closeComment (sources (relabel ns ls)) = none := by
  have notOver := isSome_closeComment (sources ls)
  rw [unclosed, ← reachesEnd_relabel ignoresPlaceholders_commentStep spaced ns,
    ← isSome_closeComment] at notOver
  exact Option.not_isSome_iff_eq_none.mp (by simp [← notOver])

/-! ## In front of relabelled text -/

/-- New labels do not change whether a text begins with a character of a class that holds both or
neither of the two signs. -/
theorem avoids_relabel
    {p : Char → Bool} (alike : p '?' = p '$')
    {ls : List Lexeme} (spaced : Spaced ls)
    (ns : List Nat) :
    Avoids p (sources (relabel ns ls)) ↔ Avoids p (sources ls) := by
  cases ls with
  | nil => rw [relabel_nil]
  | cons l ls =>
    rcases List.exists_cons_of_ne_nil spaced.1.source_ne_nil with ⟨c, tail, sourceEq⟩
    cases question : l.isQuestion with
    | false =>
      rw [relabel_other question, sources_cons, sources_cons, sourceEq, List.cons_append,
        List.cons_append, avoids_cons, avoids_cons]
    | true =>
      cases ns with
      | nil => rw [relabel_no_numbers]
      | cons n ns =>
        have sign : c = '?' := by
          rcases eq_of_isQuestion question with rfl | ⟨name, rfl⟩
          · cases sourceEq
            rfl
          · cases sourceEq
            rfl
        rw [relabel_question question, sources_cons, sources_cons, sourceEq, sign]
        exact avoids_cons.trans (alike ▸ avoids_cons.symm)

/-- A block comment that does not end still does not end under new labels. -/
theorem closeComment_of_relabel
    {ls : List Lexeme} (spaced : Spaced ls)
    (unclosed : ∀ ds, sources ls = '*' :: ds → closeComment ds = none)
    (ns : List Nat) {ds : List Char}
    (star : sources (relabel ns ls) = '*' :: ds) :
    closeComment ds = none := by
  by_cases starred : ∃ old, sources ls = '*' :: old
  · rcases starred with ⟨old, oldStar⟩
    have split : ls = .plain '*' :: lexemes old := by
      rw [← lexemes_star, ← oldStar, lexemes_sources spaced]
    rw [split, relabel_other rfl, sources_cons] at star
    cases star
    apply closeComment_relabel (spaced_lexemes old)
    rw [sources_lexemes]
    exact unclosed old oldStar
  · have avoids : Avoids (· == '*') (sources ls) := by
      intro c member
      rcases List.head?_eq_some_iff.mp member with ⟨old, same⟩
      apply beq_eq_false_iff_ne.mpr
      rintro rfl
      exact starred ⟨old, same⟩
    have stillAvoids := (avoids_relabel (by decide) spaced ns).mpr avoids
    rw [star, avoids_cons] at stillAvoids
    cases stillAvoids

theorem mayPrecede_relabel
    {l : Lexeme} (other : l.isQuestion = false)
    {ls : List Lexeme} (spaced : Spaced ls)
    (stop : l.MayPrecede (sources ls))
    (ns : List Nat) :
    l.MayPrecede (sources (relabel ns ls)) := by
  cases l with
  | literal text => trivial
  | comment text =>
    intro isLine
    exact (avoids_relabel (by decide) spaced ns).mpr (stop isLine)
  | questionPair second => trivial
  | named name => cases other
  | anonymous => cases other
  | numbered digits => exact (avoids_relabel (by decide) spaced ns).mpr stop
  | plain c =>
    rcases stop with ⟨noQuote, noHyphen, noComment, noDigit⟩
    refine ⟨?_, ?_, ?_, ?_⟩
    · intro quote
      exact closeQuote_relabel quote spaced (noQuote quote) ns
    · intro hyphen
      exact (avoids_relabel (by decide) spaced ns).mpr (noHyphen hyphen)
    · intro slash ds star
      exact closeComment_of_relabel spaced (noComment slash) ns star
    · intro dollar
      exact (avoids_relabel (by decide) spaced ns).mpr (noDigit dollar)

end LedgerQuery.Sql
