import LedgerQuery.Proofs.Sql.Joined
import LedgerQuery.Proofs.Sql.Span

/-!
# Rendered text read again

A text in the numbered style is read back as its lexemes with numbers in the place
of the question marks, to which the digits behind them are joined.  Two statements
follow from this.

Rendering is complete: the rendered text has no placeholder with a question mark,
so that rendering it again changes nothing, and everything else that the scanner
found in the text is found again in the same order.

The numbers are read back only as far as the text allows.  A placeholder is read
with its number and the digits that stood behind its question mark, so that all of
them are read with their own numbers exactly when no digit stood there.
-/

namespace LedgerQuery.Sql

/-- What the scanner reads in a rendered text. -/
theorem lexemes_toNumbered (sql : String) :
    lexemes (toNumbered sql).toList =
      joined (relabel (assigned sql) (lexemes sql.toList)) := by
  rw [toNumbered, String.toList_ofList, renumber_eq_relabel]
  exact lexemes_relabel_eq_joined sql.toList (assigned sql)

theorem length_assigned (sql : String) :
    (assigned sql).length = (lexemes sql.toList).countP Lexeme.isQuestion :=
  length_numbers .start (lexemes sql.toList)

/-! ## No question mark is left -/

theorem isQuestion_of_mem_relabel
    {ls : List Lexeme} {ns : List Nat} (length : ns.length = ls.countP Lexeme.isQuestion)
    {m : Lexeme} (member : m ∈ relabel ns ls) :
    m.isQuestion = false := by
  induction ls generalizing ns with
  | nil => cases member
  | cons l ls ih =>
    cases question : l.isQuestion with
    | false =>
      rw [List.countP_cons_of_neg (by simp [question])] at length
      rw [relabel_other question] at member
      rcases List.mem_cons.mp member with rfl | member
      · exact question
      · exact ih length member
    | true =>
      rw [List.countP_cons_of_pos question] at length
      rcases List.exists_cons_of_length_eq_add_one length with ⟨n, ns, rfl⟩
      rw [relabel_question question] at member
      rcases List.mem_cons.mp member with rfl | member
      · rfl
      · exact ih (Nat.succ.inj length) member

/-- Joining digits makes no question mark. -/
theorem mem_of_mem_joined
    {ls : List Lexeme} {m : Lexeme} (member : m ∈ joined ls) (question : m.isQuestion = true) :
    m ∈ ls := by
  induction ls with
  | nil => exact member
  | cons l ls ih =>
    cases l with
    | numbered digits =>
      rcases List.mem_cons.mp member with rfl | member
      · cases question
      · exact List.mem_cons_of_mem _ (ih ((List.dropWhile_sublist _).subset member))
    | literal text | comment text | questionPair second | named name | anonymous | plain c =>
      rcases List.mem_cons.mp member with rfl | member
      · exact List.mem_cons_self
      · exact List.mem_cons_of_mem _ (ih member)

theorem countQuestions_toNumbered (sql : String) : countQuestions (toNumbered sql) = 0 := by
  rw [countQuestions, lexemes_toNumbered, List.countP_eq_zero]
  intro m member question
  have before := mem_of_mem_joined member question
  rw [isQuestion_of_mem_relabel (length_assigned sql) before] at question
  cases question

/-- A text without question-mark placeholders is rendered as it is. -/
theorem toNumbered_of_countQuestions
    {sql : String} (noQuestion : countQuestions sql = 0) :
    toNumbered sql = sql := by
  have noNumber : numbers .start (lexemes sql.toList) = [] := by
    rw [← List.length_eq_zero_iff, length_numbers]
    exact noQuestion
  rw [toNumbered, renumber_eq_relabel, noNumber, relabel_no_numbers, sources_lexemes,
    String.ofList_toList]

/-! ## What is kept -/

/-- Quoted texts, comments and operators with a question mark. -/
def Lexeme.isSkipped : Lexeme → Bool
  | literal _ | comment _ | questionPair _ => true
  | _ => false

/-- Whatever the scanner finds besides question-mark placeholders. -/
def Lexeme.isKept (l : Lexeme) : Bool :=
  l.isSkipped || l.style? == some .numbered

theorem filterMap_dropWhile
    {α β : Type} {p : α → Bool} {f : α → Option β} (passed : ∀ a, p a = true → f a = none)
    (items : List α) :
    (items.dropWhile p).filterMap f = items.filterMap f := by
  have nothing : (items.takeWhile p).filterMap f = [] := by
    rw [List.filterMap_eq_nil_iff]
    intro a member
    exact passed a (List.all_eq_true.mp List.all_takeWhile a member)
  calc
    (items.dropWhile p).filterMap f
      = (items.takeWhile p).filterMap f ++ (items.dropWhile p).filterMap f := by
        rw [nothing, List.nil_append]
    _ = items.filterMap f := by
        rw [← List.filterMap_append, List.takeWhile_append_dropWhile]

theorem filter_dropWhile
    {α : Type} {p q : α → Bool} (passed : ∀ a, p a = true → q a = false) (items : List α) :
    (items.dropWhile p).filter q = items.filter q := by
  rw [← List.filterMap_eq_filter]
  apply filterMap_dropWhile
  intro a member
  simp [Option.guard, passed a member]

theorem isKept_of_isPlainDigit (l : Lexeme) (digit : l.isPlainDigit = true) :
    l.isKept = false := by
  rcases eq_plain_of_isPlainDigit digit with ⟨c, rfl, -⟩
  rfl

theorem isKept_of_isQuestion {l : Lexeme} (question : l.isQuestion = true) : l.isKept = false := by
  rcases eq_of_isQuestion question with rfl | ⟨name, rfl⟩ <;> rfl

/-- Quoted texts, comments, operators and numbered placeholders stay where they are. -/
theorem sublist_joined_relabel
    {ls : List Lexeme} (spaced : Spaced ls) (ns : List Nat) :
    (ls.filter Lexeme.isKept).Sublist (joined (relabel ns ls)) := by
  induction ls generalizing ns with
  | nil => exact .slnil
  | cons l ls ih =>
    have others := ih spaced.2.2
    cases question : l.isQuestion with
    | false =>
      rw [joined_relabel_other spaced question, List.filter_cons]
      split
      · exact (others ns).cons_cons l
      · exact (others ns).cons l
    | true =>
      rw [List.filter_cons_of_neg (by simp [isKept_of_isQuestion question])]
      cases ns with
      | nil =>
        rw [relabel_no_numbers, joined_of_spaced spaced]
        exact List.filter_sublist.cons l
      | cons n ns =>
        -- The digits that the new label takes are none of the lexemes that are kept.
        have behind := (others ns).filter Lexeme.isKept
        rw [List.filter_filter, ← filter_dropWhile isKept_of_isPlainDigit] at behind
        simp only [Bool.and_self] at behind
        rw [joined_relabel_question spaced.2.2 question]
        exact (behind.trans List.filter_sublist).cons _

theorem isSkipped_of_isPlainDigit (l : Lexeme) (digit : l.isPlainDigit = true) :
    l.isSkipped = false := by
  rcases eq_plain_of_isPlainDigit digit with ⟨c, rfl, -⟩
  rfl

/-- No quoted text, comment or operator is opened, closed or made. -/
theorem filter_isSkipped_joined_relabel
    {ls : List Lexeme} (spaced : Spaced ls) (ns : List Nat) :
    (joined (relabel ns ls)).filter Lexeme.isSkipped = ls.filter Lexeme.isSkipped := by
  induction ls generalizing ns with
  | nil => rfl
  | cons l ls ih =>
    have others := ih spaced.2.2
    cases question : l.isQuestion with
    | false =>
      rw [joined_relabel_other spaced question, List.filter_cons, List.filter_cons, others ns]
    | true =>
      cases ns with
      | nil => rw [relabel_no_numbers, joined_of_spaced spaced]
      | cons n ns =>
        have old : l.isSkipped = false := by
          rcases eq_of_isQuestion question with rfl | ⟨name, rfl⟩ <;> rfl
        rw [joined_relabel_question spaced.2.2 question,
          List.filter_cons_of_neg (by simp [Lexeme.isSkipped]),
          filter_dropWhile isSkipped_of_isPlainDigit, others ns,
          List.filter_cons_of_neg (by simp [old])]

/--
Rendering is complete.  The rendered text of any text has no question-mark placeholder, and
rendering it again changes nothing.  The quoted texts, comments, operators and numbered placeholders
that the scanner finds in the text are found in the rendered one, unchanged and in the same order,
and no other quoted text, comment or operator is found there.
-/
theorem toNumbered_complete (sql : String) :
    let found := lexemes sql.toList
    let foundAgain := lexemes (toNumbered sql).toList
    countQuestions (toNumbered sql) = 0 ∧
      toNumbered (toNumbered sql) = toNumbered sql ∧
      (found.filter Lexeme.isKept).Sublist foundAgain ∧
      foundAgain.filter Lexeme.isSkipped = found.filter Lexeme.isSkipped := by
  intro found foundAgain
  have read : foundAgain = joined (relabel (assigned sql) found) := lexemes_toNumbered sql
  have spaced : Spaced found := spaced_lexemes sql.toList
  have noQuestion := countQuestions_toNumbered sql
  refine ⟨noQuestion, toNumbered_of_countQuestions noQuestion, ?_, ?_⟩
  · rw [read]
    exact sublist_joined_relabel spaced (assigned sql)
  · rw [read]
    exact filter_isSkipped_joined_relabel spaced (assigned sql)

/-! ## Numbers read back -/

/-- The style of a placeholder and its name. -/
def Placeholder.mark (p : Placeholder) : Style × Option String :=
  (p.style, p.name)

/-- The style of a lexeme that is a placeholder, and its label. -/
def Lexeme.mark? (l : Lexeme) : Option (Style × Option String) :=
  l.style?.map fun style => (style, l.label?.map String.ofList)

theorem map_mark_placeholdersFrom (position ordinal : Nat) (ls : List Lexeme) :
    (placeholdersFrom position ordinal ls).map Placeholder.mark = ls.filterMap Lexeme.mark? := by
  induction ls generalizing position ordinal with
  | nil => rfl
  | cons l ls ih =>
    cases l with
    | named name | anonymous | numbered digits => exact congrArg (List.cons _) (ih _ _)
    | literal text | comment text | questionPair second | plain c => exact ih _ _

theorem map_mark_placeholders (sql : String) :
    (placeholders sql).map Placeholder.mark = (lexemes sql.toList).filterMap Lexeme.mark? :=
  map_mark_placeholdersFrom 0 0 (lexemes sql.toList)

/-- The digits that stand directly behind each question-mark placeholder. -/
def digitsBehind : List Lexeme → List (List Char)
  | [] => []
  | l :: ls =>
    if l.isQuestion then (sources ls).takeWhile Text.isDigit :: digitsBehind ls
    else digitsBehind ls

theorem digitsBehind_cons_other
    {l : Lexeme} (other : l.isQuestion = false) (ls : List Lexeme) :
    digitsBehind (l :: ls) = digitsBehind ls := by
  rw [digitsBehind, other, if_neg Bool.false_ne_true]

theorem digitsBehind_cons_question
    {l : Lexeme} (question : l.isQuestion = true) (ls : List Lexeme) :
    digitsBehind (l :: ls) = (sources ls).takeWhile Text.isDigit :: digitsBehind ls := by
  rw [digitsBehind, question, if_pos rfl]

theorem length_digitsBehind (ls : List Lexeme) :
    (digitsBehind ls).length = ls.countP Lexeme.isQuestion := by
  induction ls with
  | nil => rfl
  | cons l ls ih =>
    cases question : l.isQuestion with
    | false =>
      rw [digitsBehind_cons_other question, ih, List.countP_cons_of_neg (by simp [question])]
    | true =>
      rw [digitsBehind_cons_question question, List.length_cons, ih,
        List.countP_cons_of_pos question]

/-- A placeholder of the numbered style with a number and further digits. -/
def numberMark (n : Nat) (digits : List Char) : Style × Option String :=
  (.numbered, some (String.ofList (Numeral.decimal n ++ digits)))

theorem mark?_numbered (n : Nat) (digits : List Char) :
    (Lexeme.numbered (Numeral.decimal n ++ digits)).mark? = some (numberMark n digits) := rfl

theorem mark?_of_isPlainDigit (l : Lexeme) (digit : l.isPlainDigit = true) : l.mark? = none := by
  rcases eq_plain_of_isPlainDigit digit with ⟨c, rfl, -⟩
  rfl

/-- Each question mark is read back as its number with the digits behind it. -/
theorem filterMap_mark?_joined_relabel
    {ls : List Lexeme} (spaced : Spaced ls) (own : ∀ l ∈ ls, l.style? ≠ some .numbered)
    {ns : List Nat} (length : ns.length = ls.countP Lexeme.isQuestion) :
    (joined (relabel ns ls)).filterMap Lexeme.mark? =
      List.zipWith numberMark ns (digitsBehind ls) := by
  induction ls generalizing ns with
  | nil =>
    rw [List.length_eq_zero_iff.mp length]
    rfl
  | cons l ls ih =>
    rw [List.forall_mem_cons] at own
    cases question : l.isQuestion with
    | false =>
      have unmarked : l.mark? = none := by
        cases l with
        | named name | anonymous => cases question
        | numbered digits => exact (own.1 rfl).elim
        | literal text | comment text | questionPair second | plain c => rfl
      rw [List.countP_cons_of_neg (by simp [question])] at length
      rw [joined_relabel_other spaced question, List.filterMap_cons_none unmarked,
        ih spaced.2.2 own.2 length, digitsBehind_cons_other question]
    | true =>
      rw [List.countP_cons_of_pos question] at length
      rcases List.exists_cons_of_length_eq_add_one length with ⟨n, ns, rfl⟩
      rw [joined_relabel_question spaced.2.2 question,
        List.filterMap_cons_some (mark?_numbered n _), filterMap_dropWhile mark?_of_isPlainDigit,
        ih spaced.2.2 own.2 (Nat.succ.inj length), digitsBehind_cons_question question,
        List.zipWith_cons_cons]

theorem numberMark_eq_iff {n : Nat} {digits : List Char} :
    numberMark n digits = numberMark n [] ↔ digits = [] := by
  constructor
  · intro same
    have texts := Option.some.inj (congrArg Prod.snd same)
    exact List.append_cancel_left (String.ofList_injective texts)
  · rintro rfl
    rfl

/-- Numbers are read back without further digits exactly when no digits follow. -/
theorem zipWith_numberMark_eq_iff
    {ns : List Nat} {runs : List (List Char)} (length : ns.length = runs.length) :
    List.zipWith numberMark ns runs = ns.map (numberMark · []) ↔ ∀ run ∈ runs, run = [] := by
  induction ns generalizing runs with
  | nil => simp [List.length_eq_zero_iff.mp length.symm]
  | cons n ns ih =>
    rcases List.exists_cons_of_length_eq_add_one length.symm with ⟨run, runs, rfl⟩
    rw [List.zipWith_cons_cons, List.map_cons, List.cons_eq_cons, numberMark_eq_iff,
      ih (Nat.succ.inj length), List.forall_mem_cons]

theorem unglued_iff_digitsBehind {ls : List Lexeme} (spaced : Spaced ls) :
    Unglued ls ↔ ∀ run ∈ digitsBehind ls, run = [] := by
  induction ls with
  | nil => simp [Unglued, digitsBehind]
  | cons l ls ih =>
    have others := ih spaced.2.2
    cases question : l.isQuestion with
    | false =>
      have notAnonymous : l ≠ .anonymous := by
        rintro rfl
        cases question
      rw [digitsBehind_cons_other question, ← others]
      exact and_iff_right fun same => (notAnonymous same).elim
    | true =>
      rw [digitsBehind_cons_question question, List.forall_mem_cons, ← others,
        takeWhile_eq_nil_iff_avoids]
      refine and_congr_left fun _ => ⟨?_, ?_⟩
      · exact avoids_digit_of_question question spaced.2.1
      · intro noDigit _
        exact noDigit

/-- A text without numbered placeholders has no lexeme that is one. -/
theorem style?_ne_numbered
    {sql : String} (own : ∀ p ∈ placeholders sql, p.style ≠ .numbered) :
    ∀ l ∈ lexemes sql.toList, l.style? ≠ some .numbered := by
  intro l member numbered
  have marked : l.mark? = some (.numbered, l.label?.map String.ofList) := by
    rw [Lexeme.mark?, numbered, Option.map_some]
  have found : (Style.numbered, l.label?.map String.ofList) ∈
      (placeholders sql).map Placeholder.mark := by
    rw [map_mark_placeholders]
    exact List.mem_filterMap.mpr ⟨l, member, marked⟩
  rcases List.mem_map.mp found with ⟨p, inside, same⟩
  exact own p inside (congrArg Prod.fst same)

/--
In the rendered text of a text without numbered placeholders, each question-mark placeholder is read
back as one numbered placeholder, in order.  Its digits are those of the number that was given to it
and the digits that stood directly behind its question mark.  So the numbers are read back as they
were given exactly when no digit stood directly behind an anonymous question mark.
-/
theorem placeholders_toNumbered
    (sql : String) (own : ∀ p ∈ placeholders sql, p.style ≠ .numbered) :
    let found := lexemes sql.toList
    let read := (placeholders (toNumbered sql)).map Placeholder.mark
    read.length = (questions sql).length ∧
      read = List.zipWith numberMark (assigned sql) (digitsBehind found) ∧
      (read = (assigned sql).map (fun n => (.numbered, some (Numeral.write n))) ↔
        Unglued found) := by
  intro found read
  have spaced : Spaced found := spaced_lexemes sql.toList
  have lengths : (assigned sql).length = (digitsBehind found).length := by
    rw [length_assigned, length_digitsBehind]
  have labels : read = List.zipWith numberMark (assigned sql) (digitsBehind found) := by
    show (placeholders (toNumbered sql)).map Placeholder.mark = _
    rw [map_mark_placeholders, lexemes_toNumbered]
    exact filterMap_mark?_joined_relabel spaced (style?_ne_numbered own) (length_assigned sql)
  refine ⟨?_, labels, ?_⟩
  · rw [labels, List.length_zipWith, ← lengths, Nat.min_self, length_assigned, length_questions]
  · have alone : (fun n => (Style.numbered, some (Numeral.write n))) = (numberMark · []) := by
      funext n
      rw [numberMark, List.append_nil, Numeral.write]
    rw [alone, labels, zipWith_numberMark_eq_iff lengths, unglued_iff_digitsBehind spaced]

/-- An anonymous placeholder between two of one name, none of them in front of a digit. -/
theorem placeholders_toNumbered_apart :
    let sql := "a = ?v and b > ? and c = ?v"
    (∀ p ∈ placeholders sql, p.style ≠ .numbered) ∧ assigned sql = [1, 2, 1] ∧
      (placeholders (toNumbered sql)).map Placeholder.mark =
        [(.numbered, some "1"), (.numbered, some "2"), (.numbered, some "1")] := by
  intro sql
  have own : ∀ p ∈ placeholders sql, p.style ≠ .numbered := by
    decide +kernel
  rcases placeholders_toNumbered sql own with ⟨-, -, readBack⟩
  have unglued : Unglued (lexemes sql.toList) := by
    rw [unglued_iff_digitsBehind (spaced_lexemes _)]
    decide +kernel
  have given : assigned sql = [1, 2, 1] := by
    decide +kernel
  refine ⟨own, given, ?_⟩
  rw [readBack.mpr unglued, given]
  decide +kernel

/-- A digit directly behind a question mark is read as part of its number. -/
theorem placeholders_toNumbered_glued :
    let sql := "x > ?5"
    (∀ p ∈ placeholders sql, p.style ≠ .numbered) ∧ assigned sql = [1] ∧
      (placeholders (toNumbered sql)).map Placeholder.mark = [(.numbered, some "15")] ∧
      (placeholders (toNumbered sql)).map Placeholder.mark ≠
        (assigned sql).map (fun n => (.numbered, some (Numeral.write n))) := by
  decide +kernel

end LedgerQuery.Sql
