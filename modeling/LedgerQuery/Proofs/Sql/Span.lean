import LedgerQuery.Proofs.Sql.Assigned

/-!
# Spans of placeholders

A placeholder stands at a position of its text and takes a number of characters.
Rendering is described on the lexemes of a text; here it is described on the text
itself, as a replacement of the spans of the placeholders with a question mark.

The main statement says which numbers these placeholders are given, and that the
rendered text is the old one with the numbers in the place of these spans and
nothing else changed.
-/

namespace LedgerQuery.Sql

/-- Whether a placeholder is written with a question mark. -/
def Placeholder.isQuestion (p : Placeholder) : Bool :=
  p.style != .numbered

/-- The placeholders of a text that are written with a question mark, in order. -/
def questions (sql : String) : List Placeholder :=
  (placeholders sql).filter Placeholder.isQuestion

/-- The numbers that they are given, in the same order. -/
def assigned (sql : String) : List Nat :=
  numbers .start (lexemes sql.toList)

/-- The question-mark placeholders among lexemes, of which the first stands at `position` behind
`ordinal` placeholders. -/
def questionsFrom (position ordinal : Nat) (ls : List Lexeme) : List Placeholder :=
  (placeholdersFrom position ordinal ls).filter Placeholder.isQuestion

theorem exists_questionsFrom_cons_other
    {l : Lexeme} (other : l.isQuestion = false) (position ordinal : Nat) (ls : List Lexeme) :
    ∃ next, questionsFrom position ordinal (l :: ls) =
      questionsFrom (position + l.source.length) next ls := by
  cases l with
  | named name | anonymous => cases other
  | numbered digits => exact ⟨ordinal + 1, rfl⟩
  | literal text | comment text | questionPair second | plain c => exact ⟨ordinal, rfl⟩

theorem exists_questionsFrom_cons_question
    {l : Lexeme} (question : l.isQuestion = true) (position ordinal : Nat) (ls : List Lexeme) :
    ∃ style, questionsFrom position ordinal (l :: ls) =
      ⟨l.label?.map String.ofList, style, position, ordinal, String.ofList l.source⟩ ::
        questionsFrom (position + l.source.length) (ordinal + 1) ls := by
  cases l with
  | named name => exact ⟨.named, rfl⟩
  | anonymous => exact ⟨.anonymous, rfl⟩
  | literal text | comment text | questionPair second | numbered digits | plain c => cases question

/-! ## Spans -/

/-- Placeholders that stand in a text where they say, one behind the other. -/
structure AreSpans (cs : List Char) (ps : List Placeholder) : Prop where
  text_eq : ∀ p ∈ ps, (cs.drop p.position).take p.text.length = p.text.toList
  apart : ps.Pairwise fun p q => p.position + p.text.length ≤ q.position

theorem position_le_of_mem_questionsFrom
    {position ordinal : Nat} {ls : List Lexeme} {p : Placeholder}
    (member : p ∈ questionsFrom position ordinal ls) :
    position ≤ p.position := by
  induction ls generalizing position ordinal with
  | nil => cases member
  | cons l ls ih =>
    cases question : l.isQuestion with
    | false =>
      rcases exists_questionsFrom_cons_other question position ordinal ls with ⟨next, same⟩
      rw [same] at member
      exact Nat.le_of_add_right_le (ih member)
    | true =>
      rcases exists_questionsFrom_cons_question question position ordinal ls with ⟨style, same⟩
      rw [same] at member
      rcases List.mem_cons.mp member with rfl | member
      · exact Nat.le_refl _
      · exact Nat.le_of_add_right_le (ih member)

theorem areSpans_questionsFrom (front : List Char) (ordinal : Nat) (ls : List Lexeme) :
    AreSpans (front ++ sources ls) (questionsFrom front.length ordinal ls) := by
  induction ls generalizing front ordinal with
  | nil => exact ⟨List.forall_mem_nil _, .nil⟩
  | cons l ls ih =>
    have longer (next : Nat) := ih (front ++ l.source) next
    simp only [List.length_append, List.append_assoc, ← sources_cons] at longer
    cases question : l.isQuestion with
    | false =>
      rcases exists_questionsFrom_cons_other question front.length ordinal ls with ⟨next, same⟩
      rw [same]
      exact longer next
    | true =>
      rcases exists_questionsFrom_cons_question question front.length ordinal ls with
        ⟨style, same⟩
      rw [same]
      constructor
      · rw [List.forall_mem_cons]
        refine ⟨?_, (longer _).text_eq⟩
        simp
      · rw [List.pairwise_cons]
        refine ⟨?_, (longer _).apart⟩
        intro q member
        have behind := position_le_of_mem_questionsFrom member
        simpa using behind

/-- The question-mark placeholders of a text stand in it, one behind the other. -/
theorem areSpans_questions (sql : String) : AreSpans sql.toList (questions sql) := by
  have spans := areSpans_questionsFrom [] 0 (lexemes sql.toList)
  rw [List.nil_append, sources_lexemes] at spans
  exact spans

/-! ## Replacing spans -/

/-- A text from a position on, with a dollar sign and a number in the place of each span. -/
def replaceSpans (cs : List Char) (position : Nat) : List (Placeholder × Nat) → List Char
  | [] => cs.drop position
  | (p, n) :: rest =>
    (cs.take p.position).drop position ++
      '$' :: (Numeral.decimal n ++ replaceSpans cs (p.position + p.text.length) rest)

/-- New labels on lexemes are new labels on the spans of the text. -/
theorem replaceSpans_questionsFrom
    (front : List Char) {position : Nat} (inside : position ≤ front.length)
    (ordinal : Nat) (ls : List Lexeme) (ns : List Nat) :
    replaceSpans (front ++ sources ls) position
        ((questionsFrom front.length ordinal ls).zip ns) =
      front.drop position ++ sources (relabel ns ls) := by
  induction ls generalizing front position ordinal ns with
  | nil => simp [questionsFrom, placeholdersFrom, replaceSpans]
  | cons l ls ih =>
    have longer {start : Nat} (fits : start ≤ (front ++ l.source).length) (next : Nat) :=
      ih (front ++ l.source) fits next
    simp only [List.length_append, List.append_assoc, ← sources_cons] at longer
    cases question : l.isQuestion with
    | false =>
      rcases exists_questionsFrom_cons_other question front.length ordinal ls with ⟨next, same⟩
      rw [same, longer (Nat.le_add_right_of_le inside), List.drop_append_of_le_length inside,
        relabel_other question, sources_cons, List.append_assoc]
    | true =>
      rcases exists_questionsFrom_cons_question question front.length ordinal ls with
        ⟨style, same⟩
      cases ns with
      | nil =>
        rw [List.zip_nil_right, replaceSpans, relabel_no_numbers,
          List.drop_append_of_le_length inside]
      | cons n ns =>
        have length : (String.ofList l.source).length = l.source.length := String.length_ofList
        have copied : (front ++ l.source).drop (front.length + l.source.length) = [] := by simp
        rw [same, List.zip_cons_cons, replaceSpans, length, longer (Nat.le_refl _), copied,
          relabel_question question, sources_cons, sources_cons, List.take_left]
        rfl

/-! ## Placeholders with a name -/

/-- Whether two placeholders have one name in common. -/
def Placeholder.SharesName (p q : Placeholder) : Prop :=
  ∃ name, p.name = some name ∧ q.name = some name

/-- The number of placeholders without a name and of different names among the others. -/
def differentCount (ps : List Placeholder) : Nat :=
  (ps.countP fun p => p.name.isNone) + (ps.filterMap Placeholder.name).toFinset.card

theorem map_name_questionsFrom (position ordinal : Nat) (ls : List Lexeme) :
    (questionsFrom position ordinal ls).map Placeholder.name =
      (ls.filter Lexeme.isQuestion).map fun l => l.label?.map String.ofList := by
  induction ls generalizing position ordinal with
  | nil => rfl
  | cons l ls ih =>
    cases question : l.isQuestion with
    | false =>
      rcases exists_questionsFrom_cons_other question position ordinal ls with ⟨next, same⟩
      rw [same, ih, List.filter_cons_of_neg (by simp [question])]
    | true =>
      rcases exists_questionsFrom_cons_question question position ordinal ls with ⟨style, same⟩
      rw [same, List.map_cons, ih, List.filter_cons_of_pos question, List.map_cons]

/-- Numbers for placeholders: one for each, the same for two of them exactly when they have one
name in common, and on first use one, two, three and so on. -/
structure AreNumbers (ps : List Placeholder) (ns : List Nat) : Prop where
  length_eq : ns.length = ps.length
  shared_iff : (ps.zip ns).Pairwise fun a b => a.2 = b.2 ↔ a.1.SharesName b.1
  mem_iff : ∀ n, n ∈ ns ↔ 1 ≤ n ∧ n ≤ differentCount ps
  firstUses : firstOccurrences (· == ·) id ns = List.range' 1 (differentCount ps)

theorem map_name_questions (sql : String) :
    (questions sql).map Placeholder.name =
      ((lexemes sql.toList).filter Lexeme.isQuestion).map fun l => l.label?.map String.ofList :=
  map_name_questionsFrom 0 0 (lexemes sql.toList)

theorem length_questions (sql : String) :
    (questions sql).length = (lexemes sql.toList).countP Lexeme.isQuestion := by
  rw [← List.length_map Placeholder.name, map_name_questions, List.length_map,
    List.countP_eq_length_filter]

theorem countP_isNone_questions (sql : String) :
    ((questions sql).countP fun p => p.name.isNone) = (lexemes sql.toList).count .anonymous := by
  have onNames : ((questions sql).countP fun p => p.name.isNone) =
      ((questions sql).map Placeholder.name).countP Option.isNone := by
    rw [List.countP_map]
    rfl
  rw [onNames, map_name_questions, List.countP_map, List.countP_filter, List.count]
  apply List.countP_congr
  intro l _
  cases l <;> simp [Lexeme.isQuestion, Lexeme.label?]

theorem filterMap_name_questions (sql : String) :
    (questions sql).filterMap Placeholder.name =
      (names (lexemes sql.toList)).map String.ofList := by
  have onNames : (questions sql).filterMap Placeholder.name =
      ((questions sql).map Placeholder.name).filterMap id := by
    rw [List.filterMap_map]
    rfl
  rw [onNames, map_name_questions, List.filterMap_map, List.filterMap_filter, names,
    List.map_filterMap]
  apply List.filterMap_congr
  intro l _
  cases l with
  | named name | anonymous => rfl
  | literal text | comment text | questionPair second | numbered digits | plain c => rfl

theorem differentCount_questions (sql : String) :
    differentCount (questions sql) =
      (lexemes sql.toList).count .anonymous + (names (lexemes sql.toList)).toFinset.card := by
  have image : ((names (lexemes sql.toList)).map String.ofList).toFinset =
      (names (lexemes sql.toList)).toFinset.image String.ofList := by
    ext name
    simp
  rw [differentCount, countP_isNone_questions, filterMap_name_questions, image,
    Finset.card_image_of_injective _ fun _ _ => String.ofList_injective]

/-- Among placeholders with a question mark, those of one name have one label in common. -/
theorem sharesName_iff_label
    {l m : Lexeme} (left : l.isQuestion = true) (right : m.isQuestion = true) :
    l.SharesName m ↔
      ∃ name, l.label?.map String.ofList = some name ∧ m.label?.map String.ofList = some name := by
  constructor
  · rintro ⟨name, rfl, rfl⟩
    exact ⟨String.ofList name, rfl, rfl⟩
  · rintro ⟨name, isLeft, isRight⟩
    rcases eq_of_isQuestion left with rfl | ⟨a, rfl⟩
    · cases isLeft
    rcases eq_of_isQuestion right with rfl | ⟨b, rfl⟩
    · cases isRight
    have same : String.ofList a = String.ofList b :=
      Option.some.inj (isLeft.trans isRight.symm)
    exact ⟨a, rfl, by rw [String.ofList_injective same]⟩

theorem pairwise_assigned (sql : String) :
    ((questions sql).zip (assigned sql)).Pairwise fun a b => a.2 = b.2 ↔ a.1.SharesName b.1 := by
  have onLexemes := pairwise_numberedQuestions Numbering.isSound_start (lexemes sql.toList)
  have onLabels : ((((lexemes sql.toList).filter Lexeme.isQuestion).map
      fun l => l.label?.map String.ofList).zip (assigned sql)).Pairwise fun a b =>
        a.2 = b.2 ↔ ∃ name, a.1 = some name ∧ b.1 = some name := by
    rw [List.zip_map_left, List.pairwise_map]
    refine onLexemes.imp_of_mem ?_
    intro a b left right shared
    have isLeft := List.of_mem_filter (List.of_mem_zip left).1
    have isRight := List.of_mem_filter (List.of_mem_zip right).1
    exact shared.trans (sharesName_iff_label isLeft isRight)
  rw [← map_name_questions, List.zip_map_left, List.pairwise_map] at onLabels
  exact onLabels

theorem areNumbers_assigned (sql : String) : AreNumbers (questions sql) (assigned sql) := by
  have firstUses : firstOccurrences (· == ·) id (assigned sql) =
      List.range' 1 (differentCount (questions sql)) := by
    rw [differentCount_questions]
    exact firstOccurrences_numbers_start (lexemes sql.toList)
  refine ⟨?_, pairwise_assigned sql, ?_, firstUses⟩
  · rw [length_questions]
    exact length_numbers .start (lexemes sql.toList)
  · intro n
    have faithful (a b : Nat) : (id a == id b) = true ↔ a = b := by simp
    rw [← mem_firstOccurrences faithful, firstUses, List.mem_range'_1]
    omega

/--
Rendering gives one number to each question-mark placeholder of a text.  Two of them get the same
number exactly when both have the same name, so an anonymous one shares its number with none; on
first use the numbers are one, two, three and so on up to the number of anonymous placeholders and
different names.  The rendered text is the old one with a dollar sign and the number in the place of
the span of each of these placeholders; the spans are apart, and nothing else is changed.
-/
theorem numbering_of_questions (sql : String) :
    AreSpans sql.toList (questions sql) ∧
      AreNumbers (questions sql) (assigned sql) ∧
      (toNumbered sql).toList =
        replaceSpans sql.toList 0 ((questions sql).zip (assigned sql)) := by
  refine ⟨areSpans_questions sql, areNumbers_assigned sql, ?_⟩
  have replaced :=
    replaceSpans_questionsFrom [] (Nat.zero_le _) 0 (lexemes sql.toList) (assigned sql)
  rw [List.nil_append, sources_lexemes, List.drop_nil, List.nil_append] at replaced
  rw [toNumbered, String.toList_ofList, renumber_eq_relabel]
  exact replaced.symm

end LedgerQuery.Sql
