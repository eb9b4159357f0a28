import LedgerQuery.Proofs.Distinct
import LedgerQuery.Proofs.Sql.Numbers

/-!
# Who shares a number

The numbers of placeholders are given in one pass with a table of the names that
have occurred.  One step either takes the next number, or finds a name in the
table.  From what a step does follows what a whole pass does: two placeholders
share a number exactly when they have one name in common, and the first uses of
the numbers are the numbers that follow the last one given, in order and without
a gap.
-/

namespace LedgerQuery.Sql

/-! ## One step -/

/-- Whether two lexemes are placeholders of one name. -/
def Lexeme.SharesName (l m : Lexeme) : Prop :=
  ∃ name, l = .named name ∧ m = .named name

namespace Numbering

variable {numbering next : Numbering} {l m : Lexeme} {number other : Nat}

/-- A table whose numbers have been given before, each to one name. -/
structure IsSound (numbering : Numbering) : Prop where
  bounded : numbering.IsBounded
  injective : ∀ a b number, numbering.named.lookup a = some number →
    numbering.named.lookup b = some number → a = b

theorem isSound_start : start.IsSound where
  bounded := isBounded_start
  injective := by
    intro a b number found
    cases found

/-- A placeholder whose number agrees with the table: it has one of the numbers given before only
as a placeholder of the name that has this number. -/
def Respects (numbering : Numbering) (l : Lexeme) (number : Nat) : Prop :=
  ∀ old ≤ numbering.last,
    number = old ↔ ∃ name, l = .named name ∧ numbering.named.lookup name = some old

theorem IsSound.step
    (sound : numbering.IsSound) (assigned : numbering.assign? l = some (number, next)) :
    next.IsSound := by
  rcases assign?_cases assigned with ⟨-, -, rfl⟩ | ⟨name, -, -, rfl⟩ | ⟨name, -, absent, -, rfl⟩
  · exact ⟨sound.bounded.skip, sound.injective⟩
  · exact sound
  · refine ⟨sound.bounded.insert name, ?_⟩
    intro a b number
    rw [List.lookup_cons, List.lookup_cons]
    split <;> split
    · next _ isA _ isB =>
      intro _ _
      rw [eq_of_beq isA, eq_of_beq isB]
    · intro isNew found
      have given := sound.bounded b number found
      cases isNew
      omega
    · intro found isNew
      have given := sound.bounded a number found
      cases isNew
      omega
    · exact sound.injective a b number

theorem respects_of_assign? (assigned : numbering.assign? l = some (number, next)) :
    numbering.Respects l number := by
  intro old given
  rcases assign?_cases assigned with
    ⟨rfl, rfl, -⟩ | ⟨name, rfl, found, -⟩ | ⟨name, rfl, absent, rfl, -⟩
  · refine iff_of_false (by omega) ?_
    rintro ⟨name, same, -⟩
    cases same
  · constructor
    · rintro rfl
      exact ⟨name, rfl, found⟩
    · rintro ⟨_, same, foundOld⟩
      cases same
      exact Option.some.inj (found.symm.trans foundOld)
  · refine iff_of_false (by omega) ?_
    rintro ⟨_, same, found⟩
    cases same
    cases absent.symm.trans found

/-- What agrees with the table behind a step agrees with the one in front of it. -/
theorem Respects.of_next
    (assigned : numbering.assign? l = some (number, next)) (respects : next.Respects m other) :
    numbering.Respects m other := by
  intro old given
  rcases assign?_cases assigned with ⟨-, -, rfl⟩ | ⟨name, -, -, rfl⟩ | ⟨name, -, absent, -, rfl⟩
  · exact respects old (Nat.le_succ_of_le given)
  · exact respects old given
  · refine (respects old (Nat.le_succ_of_le given)).trans (exists_congr fun a => and_congr_right ?_)
    rintro -
    rw [List.lookup_cons]
    split
    · next isName =>
      rw [eq_of_beq isName, absent]
      refine iff_of_false ?_ (by simp)
      intro isNew
      cases isNew
      omega
    · rfl

/-- Behind a step its number belongs to the name of its placeholder alone. -/
theorem IsSound.lookup_next_iff
    (sound : numbering.IsSound) (assigned : numbering.assign? l = some (number, next))
    (name : List Char) :
    next.named.lookup name = some number ↔ l = .named name := by
  rcases assign?_cases assigned with
    ⟨rfl, rfl, rfl⟩ | ⟨own, rfl, found, rfl⟩ | ⟨own, rfl, absent, rfl, rfl⟩
  · refine iff_of_false ?_ (by simp)
    intro found
    have given := sound.bounded name _ found
    omega
  · constructor
    · intro foundOther
      rw [sound.injective name own number foundOther found]
    · intro same
      cases same
      exact found
  · rw [List.lookup_cons]
    split
    · next isName => exact iff_of_true rfl (by rw [eq_of_beq isName])
    · next notName =>
      refine iff_of_false ?_ ?_
      · intro found
        have given := sound.bounded name _ found
        omega
      · intro same
        cases same
        simp at notName

theorem IsSound.le_last_next
    (sound : numbering.IsSound) (assigned : numbering.assign? l = some (number, next)) :
    number ≤ next.last := by
  rcases assign?_cases assigned with ⟨-, rfl, rfl⟩ | ⟨name, -, found, rfl⟩ | ⟨name, -, -, rfl, rfl⟩
  · exact Nat.le_refl _
  · exact sound.bounded name number found
  · exact Nat.le_refl _

/-- Of the placeholders that follow, those of the same name get the number of a step. -/
theorem IsSound.number_eq_iff
    (sound : numbering.IsSound) (assigned : numbering.assign? l = some (number, next))
    (respects : next.Respects m other) :
    number = other ↔ l.SharesName m := by
  rw [eq_comm, respects number (sound.le_last_next assigned)]
  refine exists_congr fun name => ?_
  rw [sound.lookup_next_iff assigned, and_comm]

end Numbering

/-! ## A whole pass -/

/-- The question-mark placeholders among lexemes with the numbers that they are given. -/
def numberedQuestions (numbering : Numbering) (ls : List Lexeme) : List (Lexeme × Nat) :=
  (ls.filter Lexeme.isQuestion).zip (numbers numbering ls)

theorem numberedQuestions_cons_other
    {l : Lexeme} (other : l.isQuestion = false) (numbering : Numbering) (ls : List Lexeme) :
    numberedQuestions numbering (l :: ls) = numberedQuestions numbering ls := by
  rw [numberedQuestions, List.filter_cons_of_neg (by simp [other]), numbers_cons_other other]
  rfl

theorem numberedQuestions_cons_of_assign?
    {l : Lexeme} (question : l.isQuestion = true) {numbering next : Numbering} {number : Nat}
    (assigned : numbering.assign? l = some (number, next)) (ls : List Lexeme) :
    numberedQuestions numbering (l :: ls) = (l, number) :: numberedQuestions next ls := by
  rw [numberedQuestions, List.filter_cons_of_pos question, numbers_cons_of_assign? assigned]
  rfl

theorem respects_of_mem_numberedQuestions
    {numbering : Numbering} {ls : List Lexeme} {entry : Lexeme × Nat}
    (member : entry ∈ numberedQuestions numbering ls) :
    numbering.Respects entry.1 entry.2 := by
  induction ls generalizing numbering with
  | nil => cases member
  | cons l ls ih =>
    cases question : l.isQuestion with
    | false =>
      rw [numberedQuestions_cons_other question] at member
      exact ih member
    | true =>
      rcases Numbering.exists_assign? question numbering with ⟨number, next, assigned⟩
      rw [numberedQuestions_cons_of_assign? question assigned] at member
      rcases List.mem_cons.mp member with rfl | member
      · exact Numbering.respects_of_assign? assigned
      · exact (ih member).of_next assigned

/-- Two placeholders share a number exactly when they have one name in common. -/
theorem pairwise_numberedQuestions
    {numbering : Numbering} (sound : numbering.IsSound) (ls : List Lexeme) :
    (numberedQuestions numbering ls).Pairwise fun a b => a.2 = b.2 ↔ a.1.SharesName b.1 := by
  induction ls generalizing numbering with
  | nil => exact .nil
  | cons l ls ih =>
    cases question : l.isQuestion with
    | false =>
      rw [numberedQuestions_cons_other question]
      exact ih sound
    | true =>
      rcases Numbering.exists_assign? question numbering with ⟨number, next, assigned⟩
      rw [numberedQuestions_cons_of_assign? question assigned, List.pairwise_cons]
      refine ⟨?_, ih (sound.step assigned)⟩
      intro entry member
      exact sound.number_eq_iff assigned (respects_of_mem_numberedQuestions member)

/-! ## First uses -/

/-- The names that have no number yet. -/
def newNames (numbering : Numbering) (ls : List Lexeme) : Finset (List Char) :=
  (names ls).toFinset.filter fun name => numbering.named.lookup name = none

/-- How many numbers are given that have not been given before. -/
def newCount (numbering : Numbering) (ls : List Lexeme) : Nat :=
  ls.count .anonymous + (newNames numbering ls).card

theorem newCount_cons_other
    {l : Lexeme} (other : l.isQuestion = false) (numbering : Numbering) (ls : List Lexeme) :
    newCount numbering (l :: ls) = newCount numbering ls := by
  have notAnonymous : l ≠ .anonymous := by
    rintro rfl
    cases other
  rw [newCount, newNames, names_cons_other other, List.count_cons_of_ne notAnonymous]
  rfl

theorem newCount_cons_anonymous (numbering : Numbering) (ls : List Lexeme) (last : Nat) :
    newCount numbering (.anonymous :: ls) = newCount { numbering with last := last } ls + 1 := by
  rw [newCount, List.count_cons_self, Nat.add_right_comm]
  rfl

theorem newCount_cons_known
    {numbering : Numbering} {name : List Char} {number : Nat}
    (found : numbering.named.lookup name = some number) (ls : List Lexeme) :
    newCount numbering (.named name :: ls) = newCount numbering ls := by
  have same : newNames numbering (.named name :: ls) = newNames numbering ls := by
    show ((name :: names ls).toFinset.filter _) = _
    rw [List.toFinset_cons, Finset.filter_insert, if_neg (by simp [found])]
    rfl
  rw [newCount, same, List.count_cons_of_ne (by simp)]
  rfl

theorem newCount_cons_new
    {numbering : Numbering} {name : List Char}
    (absent : numbering.named.lookup name = none) (ls : List Lexeme) (last number : Nat) :
    newCount numbering (.named name :: ls) =
      newCount ⟨last, (name, number) :: numbering.named⟩ ls + 1 := by
  have others : newNames ⟨last, (name, number) :: numbering.named⟩ ls =
      (newNames numbering ls).erase name := by
    ext other
    rw [newNames, newNames, Finset.mem_filter, Finset.mem_erase, Finset.mem_filter,
      List.lookup_cons]
    split
    · next isName => simp [eq_of_beq isName]
    · next notName =>
      have differs : other ≠ name := by simpa using notName
      simp [differs]
  have all : newNames numbering (.named name :: ls) = insert name (newNames numbering ls) := by
    show ((name :: names ls).toFinset.filter _) = _
    rw [List.toFinset_cons, Finset.filter_insert, if_pos absent]
    rfl
  rw [newCount, newCount, others, all,
    ← Finset.card_erase_add_one (Finset.mem_insert_self name (newNames numbering ls)),
    Finset.erase_insert_eq_erase, List.count_cons_of_ne (by simp), Nat.add_assoc]

section FirstUses

variable {last number : Nat}

theorem firstUses_cons_old (old : number ≤ last) (ns : List Nat) :
    (firstOccurrences (· == ·) id (number :: ns)).filter (last < ·) =
      (firstOccurrences (· == ·) id ns).filter (last < ·) := by
  rw [firstOccurrences_cons, List.filter_cons_of_neg (by simpa using old), List.filter_filter]
  apply List.filter_congr
  intro other _
  rw [Bool.and_eq_left_iff_imp]
  intro new
  have differs : number ≠ other := by
    have later : last < other := by simpa using new
    omega
  simpa using differs

theorem firstUses_cons_new (ns : List Nat) :
    (firstOccurrences (· == ·) id ((last + 1) :: ns)).filter (last < ·) =
      (last + 1) :: (firstOccurrences (· == ·) id ns).filter (last + 1 < ·) := by
  rw [firstOccurrences_cons, List.filter_cons_of_pos (by simp), List.filter_filter]
  congr 1
  apply List.filter_congr
  intro other _
  rw [Bool.eq_iff_iff]
  simp only [id_eq, Bool.and_eq_true, decide_eq_true_eq, Bool.not_eq_true', beq_eq_false_iff_ne]
  omega

end FirstUses

/-- The first uses of the numbers that have not been given before follow the last one given, in
order and without a gap. -/
theorem firstUses_numbers
    {numbering : Numbering} (bounded : numbering.IsBounded) (ls : List Lexeme) :
    (firstOccurrences (· == ·) id (numbers numbering ls)).filter (numbering.last < ·) =
      List.range' (numbering.last + 1) (newCount numbering ls) := by
  induction ls generalizing numbering with
  | nil => rfl
  | cons l ls ih =>
    cases question : l.isQuestion with
    | false =>
      rw [numbers_cons_other question, newCount_cons_other question]
      exact ih bounded
    | true =>
      rcases Numbering.exists_assign? question numbering with ⟨number, next, assigned⟩
      rw [numbers_cons_of_assign? assigned]
      rcases Numbering.assign?_cases assigned with
        ⟨rfl, rfl, rfl⟩ | ⟨name, rfl, found, rfl⟩ | ⟨name, rfl, absent, rfl, rfl⟩
      · rw [firstUses_cons_new, newCount_cons_anonymous, List.range'_succ]
        exact congrArg (List.cons _) (ih bounded.skip)
      · rw [firstUses_cons_old (bounded name number found), newCount_cons_known found]
        exact ih bounded
      · rw [firstUses_cons_new, newCount_cons_new absent, List.range'_succ]
        exact congrArg (List.cons _) (ih (bounded.insert name))

/-! ## From the beginning -/

theorem map_snd_numberedQuestions (numbering : Numbering) (ls : List Lexeme) :
    (numberedQuestions numbering ls).map Prod.snd = numbers numbering ls := by
  rw [numberedQuestions, List.map_snd_zip]
  rw [length_numbers, List.countP_eq_length_filter]

/-- No number is zero. -/
theorem pos_of_mem_numbers_start
    {ls : List Lexeme} {number : Nat} (member : number ∈ numbers .start ls) :
    0 < number := by
  rw [← map_snd_numberedQuestions] at member
  rcases List.mem_map.mp member with ⟨entry, inside, rfl⟩
  apply Nat.pos_of_ne_zero
  intro zero
  have respects := respects_of_mem_numberedQuestions inside 0 (Nat.le_refl 0)
  rcases respects.mp zero with ⟨name, -, found⟩
  cases found

/-- The first uses of the numbers of a text are one, two, three and so on. -/
theorem firstOccurrences_numbers_start (ls : List Lexeme) :
    firstOccurrences (· == ·) id (numbers .start ls) =
      List.range' 1 (ls.count .anonymous + (names ls).toFinset.card) := by
  have all : (firstOccurrences (· == ·) id (numbers .start ls)).filter (Numbering.start.last < ·) =
      firstOccurrences (· == ·) id (numbers .start ls) := by
    rw [List.filter_eq_self]
    intro number member
    exact decide_eq_true (pos_of_mem_numbers_start (mem_of_mem_firstOccurrences member))
  have noneKnown : newNames .start ls = (names ls).toFinset :=
    Finset.filter_true_of_mem fun _ _ => rfl
  rw [← all, firstUses_numbers isBounded_start, newCount, noneKnown]
  rfl

end LedgerQuery.Sql
