import LedgerQuery.Proofs.Sql.Closed

/-!
# Conjunctions of closed clauses

Clauses whose texts are closed may be joined and joined again.  The text of the
whole is closed, and the scanner finds in it what it finds in the texts: the
same placeholders in the same order, each as far behind its old place as the
beginning of its text has moved.  So a whole has as many placeholders as values
when its parts have.
-/

namespace LedgerQuery

namespace Sql

/-! ## Closed lexemes in a row -/

/-- A lexeme that leaves nothing open at the end of its text leaves nothing open in front of a
blank. -/
theorem Lexeme.leavesOpen_append_blank
    {l : Lexeme} {ls : List Lexeme}
    (closed : l.leavesOpen ls = false)
    (ms : List Lexeme) :
    l.leavesOpen (ls ++ .plain ' ' :: ms) = false := by
  cases l with
  | plain c =>
    cases ls with
    | nil =>
      simp only [leavesOpen, Bool.or_eq_false_iff] at closed
      rcases closed with ⟨notQuote, -⟩
      simp [leavesOpen, notQuote]
    | cons m ls => exact closed
  | comment text => simp [leavesOpen]
  | literal text | questionPair second | named name | anonymous | numbered digits => rfl

/-- Closed lexemes with a blank between them are closed together. -/
theorem areClosed_append_blank
    {ls ms : List Lexeme}
    (first : areClosed ls = true)
    (second : areClosed (.plain ' ' :: ms) = true) :
    areClosed (ls ++ .plain ' ' :: ms) = true := by
  induction ls with
  | nil => exact second
  | cons l ls ih =>
    rw [areClosed, Bool.and_eq_true, Bool.not_eq_true'] at first
    rw [List.cons_append, areClosed, Lexeme.leavesOpen_append_blank first.1, ih first.2]
    rfl

/-- Characters that stand for themselves leave nothing open. -/
theorem areClosed_append_inert
    {run : List Char}
    (inert : ∀ c ∈ run, isInert c = true)
    {ls : List Lexeme}
    (closed : areClosed ls = true) :
    areClosed (run.map .plain ++ ls) = true := by
  induction run with
  | nil => exact closed
  | cons c run ih =>
    rw [List.forall_mem_cons] at inert
    have bland := inert.1
    simp only [isInert, Bool.not_eq_true', Bool.or_eq_false_iff] at bland
    rw [List.map_cons, List.cons_append, areClosed, ih inert.2]
    simp [Lexeme.leavesOpen, bland]

/-- Closed texts with a conjunction between them are closed together. -/
theorem areClosed_conjunction
    {cs ds : List Char}
    (first : areClosed (lexemes cs) = true)
    (second : areClosed (lexemes ds) = true) :
    areClosed (lexemes (cs ++ Clause.conjunction.toList ++ ds)) = true := by
  have inert : ∀ c ∈ Clause.conjunction.toList, isInert c = true :=
    List.all_eq_true.mp (by decide)
  rw [lexemes_append_conjunction first]
  exact areClosed_append_blank first (areClosed_append_inert inert second)

/-- Closed texts that are joined are closed. -/
theorem isClosed_intercalate
    {texts : List String}
    (closed : ∀ text ∈ texts, IsClosed text) :
    IsClosed (Clause.conjunction.intercalate texts) := by
  induction texts with
  | nil =>
    show areClosed (lexemes []) = true
    rw [lexemes_nil]
    rfl
  | cons text texts ih =>
    rw [List.forall_mem_cons] at closed
    cases texts with
    | nil =>
      rw [String.intercalate_singleton]
      exact closed.1
    | cons second texts =>
      rw [String.intercalate_cons_cons, IsClosed, String.toList_append, String.toList_append]
      exact areClosed_conjunction closed.1 (ih closed.2)

/-! ## Placeholders that have moved -/

/-- A placeholder that is put behind `offset` characters and `count` placeholders. -/
def Placeholder.behind (offset count : Nat) (p : Placeholder) : Placeholder :=
  { p with position := offset + p.position, ordinal := count + p.ordinal }

theorem placeholdersFrom_cons (position ordinal : Nat) (l : Lexeme) (ls : List Lexeme) :
    placeholdersFrom position ordinal (l :: ls) =
      placeholdersFrom position ordinal [l] ++
        placeholdersFrom (position + l.source.length)
          (ordinal + (placeholdersFrom position ordinal [l]).length) ls := by
  cases l <;> rfl

theorem placeholdersFrom_append (position ordinal : Nat) (ls ms : List Lexeme) :
    placeholdersFrom position ordinal (ls ++ ms) =
      placeholdersFrom position ordinal ls ++
        placeholdersFrom (position + (sources ls).length)
          (ordinal + (placeholdersFrom position ordinal ls).length) ms := by
  induction ls generalizing position ordinal with
  | nil => rfl
  | cons l ls ih =>
    rw [List.cons_append, placeholdersFrom_cons, ih, placeholdersFrom_cons _ _ _ ls, sources_cons]
    simp only [List.length_append, List.append_assoc, Nat.add_assoc]

theorem placeholdersFrom_add (offset count position ordinal : Nat) (ls : List Lexeme) :
    placeholdersFrom (offset + position) (count + ordinal) ls =
      (placeholdersFrom position ordinal ls).map (.behind offset count) := by
  induction ls generalizing position ordinal with
  | nil => rfl
  | cons l ls ih =>
    have behind := ih (position + l.source.length)
    simp only [← Nat.add_assoc] at behind
    rw [placeholdersFrom, placeholdersFrom]
    cases l.style? with
    | none => exact behind ordinal
    | some style => exact congrArg (List.cons _) (behind (ordinal + 1))

/-- The placeholders of a text that begins at a position behind other placeholders. -/
theorem placeholdersFrom_lexemes (offset count : Nat) (sql : String) :
    placeholdersFrom offset count (lexemes sql.toList) =
      (placeholders sql).map (.behind offset count) :=
  placeholdersFrom_add offset count 0 0 (lexemes sql.toList)

theorem placeholdersFrom_plain (position ordinal : Nat) (cs : List Char) (ls : List Lexeme) :
    placeholdersFrom position ordinal (cs.map .plain ++ ls) =
      placeholdersFrom (position + cs.length) ordinal ls := by
  induction cs generalizing position with
  | nil => rfl
  | cons c cs ih =>
    rw [List.map_cons, List.cons_append, List.length_cons, Nat.add_comm cs.length,
      ← Nat.add_assoc]
    exact ih (position + 1)

/-! ## Texts in their places -/

/-- A text in the place that it has among others. -/
structure Placed where
  text : String
  /-- The number of characters in front of it. -/
  offset : Nat
  /-- The number of placeholders in front of it. -/
  count : Nat

namespace Placed

/-- The placeholders of the text, where they stand now. -/
def placeholders (placed : Placed) : List Placeholder :=
  (Sql.placeholders placed.text).map (.behind placed.offset placed.count)

/-- The text is found where it is said to stand. -/
def StandsIn (placed : Placed) (sql : String) : Prop :=
  ∃ front rest : String, sql = front ++ placed.text ++ rest ∧ front.length = placed.offset

end Placed

/-- The places of texts that are joined, of which the first begins behind `offset` characters and
`count` placeholders. -/
def placesFrom (offset count : Nat) : List String → List Placed
  | [] => []
  | text :: texts =>
    ⟨text, offset, count⟩ ::
      placesFrom (offset + text.length + Clause.conjunction.length)
        (count + (placeholders text).length) texts

/-- The places of texts that are joined. -/
def places (texts : List String) : List Placed :=
  placesFrom 0 0 texts

/-- Each text stands in its place behind any other text. -/
theorem standsIn_placesFrom
    (front : String) (count : Nat) {texts : List String} {placed : Placed}
    (member : placed ∈ placesFrom front.length count texts) :
    placed.StandsIn (front ++ Clause.conjunction.intercalate texts) := by
  induction texts generalizing front count with
  | nil => cases member
  | cons text texts ih =>
    cases texts with
    | nil =>
      rw [List.mem_singleton.mp member, String.intercalate_singleton]
      exact ⟨front, "", String.append_empty.symm, rfl⟩
    | cons second texts =>
      rw [String.intercalate_cons_cons]
      rcases List.mem_cons.mp member with rfl | member
      · refine
          ⟨front, Clause.conjunction ++ Clause.conjunction.intercalate (second :: texts), ?_, rfl⟩
        simp only [String.append_assoc]
      · rw [← String.length_append, ← String.length_append] at member
        have longer := ih (front ++ text ++ Clause.conjunction) _ member
        simpa only [String.append_assoc] using longer

/-- The placeholders of closed texts that are joined are those of the texts in their places. -/
theorem placeholdersFrom_intercalate
    {texts : List String}
    (closed : ∀ text ∈ texts, IsClosed text)
    (offset count : Nat) :
    placeholdersFrom offset count (lexemes (Clause.conjunction.intercalate texts).toList) =
      (placesFrom offset count texts).flatMap Placed.placeholders := by
  induction texts generalizing offset count with
  | nil =>
    show placeholdersFrom offset count (lexemes []) = []
    rw [lexemes_nil]
    rfl
  | cons text texts ih =>
    rw [List.forall_mem_cons] at closed
    have first : placeholdersFrom offset count (lexemes text.toList) =
        Placed.placeholders ⟨text, offset, count⟩ :=
      placeholdersFrom_lexemes offset count text
    have length : (placeholdersFrom offset count (lexemes text.toList)).length =
        (placeholders text).length := by
      rw [placeholdersFrom_lexemes, List.length_map]
    cases texts with
    | nil =>
      rw [String.intercalate_singleton, first]
      exact (List.append_nil _).symm
    | cons second texts =>
      rw [String.intercalate_cons_cons, String.toList_append, String.toList_append,
        lexemes_append_conjunction closed.1, placeholdersFrom_append, placeholdersFrom_plain,
        sources_lexemes, String.length_toList, String.length_toList, length, ih closed.2, first]
      rfl

theorem map_text_placesFrom (offset count : Nat) (texts : List String) :
    (placesFrom offset count texts).map Placed.text = texts := by
  induction texts generalizing offset count with
  | nil => rfl
  | cons text texts ih => exact congrArg (List.cons text) (ih _ _)

end Sql

namespace Clause

open Sql (IsClosed Placed countQuestions placeholders places)

/-- Nothing is left out where every clause has a text. -/
theorem join_of_ne_empty
    {clauses : List Clause}
    (someText : ∀ clause ∈ clauses, clause.text ≠ "")
    (separator : String) :
    join separator clauses =
      ⟨separator.intercalate (clauses.map text), clauses.flatMap values⟩ := by
  have kept : clauses.filter (fun clause => !clause.text.isEmpty) = clauses := by
    rw [List.filter_eq_self]
    intro clause member
    simpa using someText clause member
  rw [join, kept]

/--
Clauses with closed texts make up a clause with a closed text.  Its values are
the values of all of them.  Its placeholders are those of their texts, each moved
by the number of characters in front of its text in the whole, and counted on
from the placeholders in front of it.  With as many placeholders as values in
every clause there are as many in the whole.
-/
theorem join_of_closed
    {clauses : List Clause}
    (someText : ∀ clause ∈ clauses, clause.text ≠ "")
    (closed : ∀ clause ∈ clauses, IsClosed clause.text)
    (balanced : ∀ clause ∈ clauses, countQuestions clause.text = clause.values.length) :
    let whole := join conjunction clauses
    let parts := places (clauses.map text)
    IsClosed whole.text ∧ whole.values = clauses.flatMap values ∧
      parts.map Placed.text = clauses.map text ∧ (∀ part ∈ parts, part.StandsIn whole.text) ∧
      placeholders whole.text = parts.flatMap Placed.placeholders ∧
      countQuestions whole.text = whole.values.length := by
  intro whole parts
  have joined : whole = ⟨conjunction.intercalate (clauses.map text), clauses.flatMap values⟩ :=
    join_of_ne_empty someText conjunction
  have closedTexts : ∀ sql ∈ clauses.map text, IsClosed sql := List.forall_mem_map.mpr closed
  have eachBalanced : (clauses.map text).map countQuestions =
      clauses.map fun clause => clause.values.length := by
    rw [List.map_map]
    exact List.map_congr_left balanced
  rw [joined]
  refine ⟨Sql.isClosed_intercalate closedTexts, rfl, Sql.map_text_placesFrom 0 0 _, ?_, ?_, ?_⟩
  · intro part member
    have stands := Sql.standsIn_placesFrom "" 0 member
    rwa [String.empty_append] at stands
  · exact Sql.placeholdersFrom_intercalate closedTexts 0 0
  · have others : ∀ sql ∈ (clauses.map text).dropLast, IsClosed sql := by
      intro sql member
      exact closedTexts sql (List.dropLast_subset _ member)
    rw [Sql.countQuestions_intercalate _ others, eachBalanced, List.length_flatMap]

/-- Question marks in a quoted name, in comments and in an operator stand between the placeholders
of three clauses, of which the second ends its comment in time. -/
theorem join_of_closed_three :
    let clauses : List Clause :=
      [⟨"\"a?\" = ?v", [.int 1]⟩, ⟨"b IN (?, $7, ?) -- ?\n", [.int 2, .int 3]⟩,
        ⟨"c ?| d /* '? */", []⟩]
    let whole := join conjunction clauses
    (∀ clause ∈ clauses, clause.text ≠ "") ∧ (∀ clause ∈ clauses, IsClosed clause.text) ∧
      (∀ clause ∈ clauses, countQuestions clause.text = clause.values.length) ∧
      IsClosed whole.text ∧ whole.values = [.int 1, .int 2, .int 3] ∧
      ((placeholders whole.text).map fun p => (p.text, p.position, p.ordinal)) =
        [("?v", 7, 0), ("?", 20, 1), ("$7", 23, 2), ("?", 27, 3)] ∧
      countQuestions whole.text = 3 := by
  intro clauses whole
  have someText : ∀ clause ∈ clauses, clause.text ≠ "" := by
    simp [clauses]
  have closed : ∀ clause ∈ clauses, IsClosed clause.text := by
    simp only [clauses, List.forall_mem_cons]
    decide +kernel
  have balanced : ∀ clause ∈ clauses, countQuestions clause.text = clause.values.length := by
    simp only [clauses, List.forall_mem_cons]
    decide +kernel
  rcases join_of_closed someText closed balanced with ⟨wholeClosed, bound, -, -, found, count⟩
  have counted : countQuestions whole.text = 3 := count.trans (congrArg List.length bound)
  refine ⟨someText, closed, balanced, wholeClosed, bound, ?_, counted⟩
  rw [found]
  decide +kernel

end Clause

end LedgerQuery
