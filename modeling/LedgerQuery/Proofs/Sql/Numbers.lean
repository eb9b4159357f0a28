import LedgerQuery.Proofs.Sql.Relabel

/-!
# The numbers of placeholders

Rendering gives each question-mark placeholder one number.  An anonymous one
and a new name take the next number; a name that has occurred keeps its own.
The main statement is that the numbers run from one upwards without a gap
exactly when no name occurs twice.
-/

namespace LedgerQuery.Sql

/-! ## Numbering one placeholder -/

namespace Numbering

theorem assign?_other
    {l : Lexeme} (other : l.isQuestion = false) (numbering : Numbering) :
    numbering.assign? l = none := by
  cases l with
  | named name | anonymous => cases other
  | literal text | comment text | questionPair second | numbered digits | plain c => rfl

theorem assign?_named_of_lookup_none
    {numbering : Numbering} {name : List Char}
    (absent : numbering.named.lookup name = none) :
    numbering.assign? (.named name) =
      some (numbering.last + 1,
        ⟨numbering.last + 1, (name, numbering.last + 1) :: numbering.named⟩) := by
  rw [assign?, absent]

theorem assign?_named_of_lookup_some
    {numbering : Numbering} {name : List Char} {number : Nat}
    (found : numbering.named.lookup name = some number) :
    numbering.assign? (.named name) = some (number, numbering) := by
  rw [assign?, found]

theorem exists_assign?
    {l : Lexeme} (question : l.isQuestion = true) (numbering : Numbering) :
    ∃ number next, numbering.assign? l = some (number, next) := by
  rcases eq_of_isQuestion question with rfl | ⟨name, rfl⟩
  · exact ⟨_, _, rfl⟩
  · cases found : numbering.named.lookup name with
    | none => exact ⟨_, _, assign?_named_of_lookup_none found⟩
    | some number => exact ⟨_, _, assign?_named_of_lookup_some found⟩

/-- A placeholder takes the next number, with its name put into the table if it has one, or the
number that the table has for its name. -/
theorem assign?_cases
    {numbering next : Numbering} {l : Lexeme} {number : Nat}
    (assigned : numbering.assign? l = some (number, next)) :
    (l = .anonymous ∧ number = numbering.last + 1 ∧
        next = { numbering with last := numbering.last + 1 }) ∨
      (∃ name, l = .named name ∧ numbering.named.lookup name = some number ∧ next = numbering) ∨
      ∃ name, l = .named name ∧ numbering.named.lookup name = none ∧
        number = numbering.last + 1 ∧
        next = ⟨numbering.last + 1, (name, numbering.last + 1) :: numbering.named⟩ := by
  cases l with
  | anonymous =>
    cases assigned
    exact Or.inl ⟨rfl, rfl, rfl⟩
  | named name =>
    cases found : numbering.named.lookup name with
    | none =>
      rw [assign?_named_of_lookup_none found] at assigned
      cases assigned
      exact Or.inr (Or.inr ⟨name, rfl, found, rfl, rfl⟩)
    | some known =>
      rw [assign?_named_of_lookup_some found] at assigned
      cases assigned
      exact Or.inr (Or.inl ⟨name, rfl, found, rfl⟩)
  | literal text | comment text | questionPair second | numbered digits | plain c => cases assigned

end Numbering

theorem numbers_cons_other
    {l : Lexeme} (other : l.isQuestion = false) (numbering : Numbering) (ls : List Lexeme) :
    numbers numbering (l :: ls) = numbers numbering ls := by
  rw [numbers, Numbering.assign?_other other]

theorem numbers_cons_of_assign?
    {numbering next : Numbering} {l : Lexeme} {number : Nat}
    (assigned : numbering.assign? l = some (number, next)) (ls : List Lexeme) :
    numbers numbering (l :: ls) = number :: numbers next ls := by
  rw [numbers, assigned]

/-- Rendering puts the assigned numbers in the place of the question marks. -/
theorem renumber_eq_relabel (numbering : Numbering) (ls : List Lexeme) :
    renumber numbering ls = relabel (numbers numbering ls) ls := by
  induction ls generalizing numbering with
  | nil => rfl
  | cons l ls ih =>
    cases question : l.isQuestion with
    | false =>
      rw [renumber, Numbering.assign?_other question, numbers_cons_other question,
        relabel_other question, ih]
    | true =>
      rcases Numbering.exists_assign? question numbering with ⟨number, next, assigned⟩
      rw [renumber, assigned, numbers_cons_of_assign? assigned, relabel_question question]
      exact congrArg (List.cons _) (ih next)

/-- Every question-mark placeholder gets one number. -/
theorem length_numbers (numbering : Numbering) (ls : List Lexeme) :
    (numbers numbering ls).length = ls.countP Lexeme.isQuestion := by
  induction ls generalizing numbering with
  | nil => rfl
  | cons l ls ih =>
    cases question : l.isQuestion with
    | false => rw [numbers_cons_other question, ih, List.countP_cons_of_neg (by simp [question])]
    | true =>
      rcases Numbering.exists_assign? question numbering with ⟨number, next, assigned⟩
      rw [numbers_cons_of_assign? assigned, List.countP_cons_of_pos question]
      exact congrArg (· + 1) (ih next)

/-! ## Distinct names -/

theorem names_cons_other
    {l : Lexeme} (other : l.isQuestion = false) (ls : List Lexeme) :
    names (l :: ls) = names ls := by
  cases l with
  | named name | anonymous => cases other
  | literal text | comment text | questionPair second | numbered digits | plain c => rfl

/-- The names of some placeholders are new: they differ from each other and have no number. -/
def AreNew (numbering : Numbering) (ns : List (List Char)) : Prop :=
  ns.Nodup ∧ ∀ name ∈ ns, numbering.named.lookup name = none

theorem areNew_cons_of_lookup_none
    {numbering : Numbering} {name : List Char} {ns : List (List Char)} {number last : Nat}
    (absent : numbering.named.lookup name = none) :
    AreNew numbering (name :: ns) ↔ AreNew ⟨last, (name, number) :: numbering.named⟩ ns := by
  constructor
  · rintro ⟨distinct, fresh⟩
    rw [List.nodup_cons] at distinct
    refine ⟨distinct.2, ?_⟩
    intro other member
    have differs : other ≠ name := by
      rintro rfl
      exact distinct.1 member
    rw [List.lookup_cons, beq_false_of_ne differs]
    exact fresh other (List.mem_cons_of_mem name member)
  · rintro ⟨distinct, fresh⟩
    have notMember : name ∉ ns := by
      intro member
      have found := fresh name member
      rw [List.lookup_cons_self] at found
      cases found
    refine ⟨List.nodup_cons.mpr ⟨notMember, distinct⟩, ?_⟩
    intro other member
    rcases List.mem_cons.mp member with rfl | member
    · exact absent
    · have found := fresh other member
      rw [List.lookup_cons] at found
      split at found
      · cases found
      · exact found

/-- New names are numbered one after the other, together with the anonymous placeholders. -/
theorem numbers_of_areNew
    {numbering : Numbering} {ls : List Lexeme}
    (areNew : AreNew numbering (names ls)) :
    numbers numbering ls = List.range' (numbering.last + 1) (ls.countP Lexeme.isQuestion) := by
  induction ls generalizing numbering with
  | nil => rfl
  | cons l ls ih =>
    cases question : l.isQuestion with
    | false =>
      rw [names_cons_other question] at areNew
      rw [numbers_cons_other question, List.countP_cons_of_neg (by simp [question])]
      exact ih areNew
    | true =>
      rw [List.countP_cons_of_pos question, List.range'_succ]
      rcases eq_of_isQuestion question with rfl | ⟨name, rfl⟩
      · exact congrArg (List.cons _) (ih areNew)
      · have absent : numbering.named.lookup name = none := areNew.2 name List.mem_cons_self
        rw [numbers_cons_of_assign? (Numbering.assign?_named_of_lookup_none absent)]
        exact congrArg (List.cons _) (ih ((areNew_cons_of_lookup_none absent).mp areNew))

/-! ## Repeated names -/

/-- The numbers in the table have been given before. -/
def Numbering.IsBounded (numbering : Numbering) : Prop :=
  ∀ name number, numbering.named.lookup name = some number → number ≤ numbering.last

theorem Numbering.IsBounded.insert
    {numbering : Numbering} (bounded : numbering.IsBounded) (name : List Char) :
    IsBounded ⟨numbering.last + 1, (name, numbering.last + 1) :: numbering.named⟩ := by
  intro other number found
  rw [List.lookup_cons] at found
  split at found
  · cases found
    exact Nat.le_refl _
  · exact Nat.le_succ_of_le (bounded other number found)

theorem Numbering.IsBounded.skip
    {numbering : Numbering} (bounded : numbering.IsBounded) :
    IsBounded { numbering with last := numbering.last + 1 } := by
  intro name number found
  exact Nat.le_succ_of_le (bounded name number found)

theorem countP_pos_of_names_ne_nil
    {ls : List Lexeme}
    (someName : names ls ≠ []) :
    0 < ls.countP Lexeme.isQuestion := by
  rcases List.exists_mem_of_ne_nil _ someName with ⟨name, member⟩
  rcases List.mem_filterMap.mp member with ⟨l, inside, same⟩
  refine List.countP_pos_iff.mpr ⟨l, inside, ?_⟩
  cases l with
  | named name => rfl
  | anonymous | literal text | comment text | questionPair second | numbered digits | plain c =>
    cases same

theorem countP_pos_of_not_areNew
    {numbering : Numbering} {ls : List Lexeme}
    (known : ¬AreNew numbering (names ls)) :
    0 < ls.countP Lexeme.isQuestion := by
  apply countP_pos_of_names_ne_nil
  intro noNames
  rw [noNames] at known
  exact known ⟨List.nodup_nil, by simp⟩

/-- A number is not greater than the number of placeholders allows; where a name is not new, it is
not even the greatest possible one. -/
structure IsWithin (numbering : Numbering) (ls : List Lexeme) (number : Nat) : Prop where
  least : number ≤ numbering.last + ls.countP Lexeme.isQuestion
  strict : ¬AreNew numbering (names ls) → number < numbering.last + ls.countP Lexeme.isQuestion

/-- The step to a placeholder that takes the next number. -/
theorem isWithin_cons_of_next
    {numbering next : Numbering} (follows : next.last = numbering.last + 1)
    {l : Lexeme} (question : l.isQuestion = true) {ls : List Lexeme}
    (stillKnown : ¬AreNew numbering (names (l :: ls)) → ¬AreNew next (names ls))
    {number : Nat} (given : number = numbering.last + 1 ∨ IsWithin next ls number) :
    IsWithin numbering (l :: ls) number := by
  have total : (l :: ls).countP Lexeme.isQuestion = ls.countP Lexeme.isQuestion + 1 :=
    List.countP_cons_of_pos question
  rcases given with rfl | within
  · constructor
    · omega
    · intro known
      have more : 0 < ls.countP Lexeme.isQuestion := countP_pos_of_not_areNew (stillKnown known)
      omega
  · have least := within.least
    constructor
    · omega
    · intro known
      have less := within.strict (stillKnown known)
      omega

/-- The step to a placeholder that has a number. -/
theorem isWithin_cons_of_known
    {numbering : Numbering} {l : Lexeme} (question : l.isQuestion = true) {ls : List Lexeme}
    {number : Nat} (given : number ≤ numbering.last ∨ IsWithin numbering ls number) :
    IsWithin numbering (l :: ls) number := by
  have total : (l :: ls).countP Lexeme.isQuestion = ls.countP Lexeme.isQuestion + 1 :=
    List.countP_cons_of_pos question
  have least : number ≤ numbering.last + ls.countP Lexeme.isQuestion := by
    rcases given with old | within
    · exact Nat.le_add_right_of_le old
    · exact within.least
  constructor
  · omega
  · intro _
    omega

theorem isWithin_of_mem_numbers
    {numbering : Numbering} (bounded : numbering.IsBounded) {ls : List Lexeme}
    {number : Nat} (member : number ∈ numbers numbering ls) :
    IsWithin numbering ls number := by
  induction ls generalizing numbering with
  | nil => cases member
  | cons l ls ih =>
    cases question : l.isQuestion with
    | false =>
      rw [numbers_cons_other question] at member
      have within := ih bounded member
      constructor
      · rw [List.countP_cons_of_neg (by simp [question])]
        exact within.least
      · rw [names_cons_other question, List.countP_cons_of_neg (by simp [question])]
        exact within.strict
    | true =>
      rcases Numbering.exists_assign? question numbering with ⟨given, next, assigned⟩
      rw [numbers_cons_of_assign? assigned, List.mem_cons] at member
      rcases Numbering.assign?_cases assigned with
        ⟨rfl, rfl, rfl⟩ | ⟨name, rfl, found, rfl⟩ | ⟨name, rfl, absent, rfl, rfl⟩
      · have stillKnown (known : ¬AreNew numbering (names ls)) :
            ¬AreNew { numbering with last := numbering.last + 1 } (names ls) := known
        exact isWithin_cons_of_next rfl question stillKnown (member.imp_right (ih bounded.skip))
      · apply isWithin_cons_of_known question
        refine member.imp ?_ (ih bounded)
        rintro rfl
        exact bounded name number found
      · apply isWithin_cons_of_next rfl question (mt (areNew_cons_of_lookup_none absent).mpr)
        exact member.imp_right (ih (bounded.insert name))

/-! ## From the beginning -/

theorem areNew_start {ns : List (List Char)} : AreNew .start ns ↔ ns.Nodup := by
  constructor
  · intro areNew
    exact areNew.1
  · intro distinct
    exact ⟨distinct, fun _ _ => rfl⟩

theorem isBounded_start : Numbering.start.IsBounded := by
  intro name number found
  cases found

/-- A repeated name takes the place of the greatest number. -/
theorem notMem_numbers_start_of_not_nodup
    {ls : List Lexeme}
    (repeated : ¬(names ls).Nodup) :
    ls.countP Lexeme.isQuestion ∉ numbers .start ls := by
  intro member
  have known : ¬AreNew .start (names ls) := mt areNew_start.mp repeated
  have less := (isWithin_of_mem_numbers isBounded_start member).strict known
  simp [Numbering.start] at less

/-- The numbers run through all placeholders exactly when no name occurs twice. -/
theorem numbers_start_eq_range_iff {ls : List Lexeme} :
    numbers .start ls = List.range' 1 (ls.countP Lexeme.isQuestion) ↔ (names ls).Nodup := by
  constructor
  · intro consecutive
    by_cases distinct : (names ls).Nodup
    · exact distinct
    have missing := notMem_numbers_start_of_not_nodup distinct
    have known : ¬AreNew .start (names ls) := mt areNew_start.mp distinct
    have some : 0 < ls.countP Lexeme.isQuestion := countP_pos_of_not_areNew known
    rw [consecutive, List.mem_range'_1] at missing
    omega
  · intro distinct
    exact numbers_of_areNew (areNew_start.mpr distinct)

end LedgerQuery.Sql
