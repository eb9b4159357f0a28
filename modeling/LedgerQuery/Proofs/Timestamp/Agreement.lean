import LedgerQuery.Clause.Parameter
import LedgerQuery.Proofs.Clause.Column
import LedgerQuery.Proofs.Timestamp.Acceptance

/-!
# Clauses and merged filters agree

The tokens of the timestamp parameter go two ways.  They are compiled into a
clause, or they become filters that are merged into a range and two sets of
values.  Where every token holds a timestamp and the merging is lenient, both
say the same about every number.
-/

namespace LedgerQuery.Timestamp

/-! ## What merged filters admit -/

/-- A number lies in the range, if there is one, matches every value to match and no other. -/
def Merged.Admits (merged : Merged) (x : Int) : Prop :=
  (∀ range, merged.range = some range → range.contains (.int x) = .ok true) ∧
    (∀ n ∈ merged.eqs, x = n) ∧ x ∉ merged.nes

/-- The options under which filters on every number are merged. -/
def Options.lenient (allowNe : Bool) (config : Config) : Options :=
  { required := false, allowNe, allowOpenRange := true, strict := some false,
    validateRange := false, config }

theorem acceptable_lenient (allowNe : Bool) (config : Config) (cs : List Condition) :
    Acceptable (.lenient allowNe config) cs where
  given impossible := by cases impossible
  simple impossible := by cases impossible
  sided := Or.inl rfl
  narrow impossible := by cases impossible

theorem admits_summary_iff {cs : List Condition} {x : Int} :
    (summary cs).Admits x ↔ ∀ c ∈ cs, c.1.Holds x c.2 := by
  have range : (∀ range, (summary cs).range = some range → range.contains (.int x) = .ok true) ↔
      ∀ c ∈ cs, c.isBound = true → c.1.Holds x c.2 := by
    cases isRange : (summary cs).range with
    | none =>
      rw [range_summary_eq_none_iff] at isRange
      apply iff_of_true
      · intro range impossible
        cases impossible
      · intro c member bound
        rw [isRange c member] at bound
        cases bound
    | some range =>
      rw [← decide_eq_true_iff (p := ∀ c ∈ cs, c.isBound = true → c.1.Holds x c.2)]
      constructor
      · intro inside
        exact Except.ok.inj ((contains_range_summary isRange x).symm.trans (inside range rfl))
      · rintro holds _ ⟨⟩
        rw [contains_range_summary isRange, holds]
  rw [Merged.Admits, range]
  simp only [summary, mem_sortedDistinct, mem_valuesOf]
  constructor
  · rintro ⟨bounds, equalities, exclusions⟩ ⟨operator, n⟩ member
    cases operator with
    | eq => exact equalities n member
    | ne =>
      rintro rfl
      exact exclusions member
    | lt => exact bounds _ member rfl
    | lte => exact bounds _ member rfl
    | gt => exact bounds _ member rfl
    | gte => exact bounds _ member rfl
  · intro holds
    refine ⟨fun c member _ => holds c member, fun n member => holds _ member, ?_⟩
    intro member
    exact holds _ member rfl

/-! ## Tokens -/

/-- The filter of a token of the timestamp parameter. -/
def Filter.ofToken (s : String) : Filter :=
  ⟨Parameter.timestamp.word, (Token.parse s).operator.word,
    Field.parseTimestamp (.text (Token.parse s).value)⟩

theorem exists_parseTimestamp {v : Value} (valid : Field.isTimestamp v = true) :
    ∃ n, Field.parseTimestamp v = .int n := by
  rw [Field.isTimestamp] at valid
  split at valid
  · next s isText =>
    rcases Option.isSome_iff_exists.mp valid with ⟨digits, found⟩
    rw [Field.parseTimestamp, isText, Option.bind_some, Field.timestampOfText?, found]
    exact ⟨_, rfl⟩
  · cases valid

/-- The conditions that tokens with timestamps ask for. -/
theorem exists_conditions
    {tokens : List String}
    (valid : ∀ s ∈ tokens, Field.isTimestamp (.text (Token.parse s).value) = true) :
    ∃ cs : List Condition, List.Forall₂
      (fun s c => c.1 = (Token.parse s).operator ∧
        Field.parseTimestamp (.text (Token.parse s).value) = .int c.2) tokens cs := by
  apply exists_forall₂
  intro s member
  rcases exists_parseTimestamp (valid s member) with ⟨n, parsed⟩
  exact ⟨((Token.parse s).operator, n), rfl, parsed⟩

/--
The clause of timestamp tokens and the merged filters of the same tokens agree.
Merging succeeds, there is a clause for every column whose name has no
backslash, and a number satisfies the clause, read from its text and values,
exactly when the merged filters admit it.
-/
theorem holds_timestampClause_iff_admits
    {tokens : List String}
    (valid : ∀ s ∈ tokens, Field.isTimestamp (.text (Token.parse s).value) = true)
    {query : Query} (given : query.get Parameter.timestamp.word = .list (tokens.map .text))
    (column : String) (allowNe : Bool) (config : Config) :
    ∃ merged, (merge (.lenient allowNe config) (tokens.map .ofToken)).result = .ok merged ∧
      ('\\' ∉ column.toList → ∃ clause, (timestampClause ⟨column, []⟩ query).result = .ok clause) ∧
      ∀ clause, (timestampClause ⟨column, []⟩ query).result = .ok clause →
        ∀ x : Int, clause.Holds column x ↔ merged.Admits x := by
  rcases exists_conditions valid with ⟨cs, parsed⟩
  have read : List.Forall₂ Filter.Reads (tokens.map .ofToken) cs := by
    rw [List.forall₂_map_left_iff]
    apply parsed.imp
    rintro s c ⟨operator, value⟩
    constructor
    · rw [operator]
      exact Operator.ofWord?_word _
    · show (Field.parseTimestamp (.text (Token.parse s).value)).toInt = .ok c.2
      rw [value]
      rfl
  rcases (exists_merge_iff_acceptable read _).mpr (acceptable_lenient allowNe config cs) with
    ⟨merged, done⟩
  have binds : List.Forall₂
      (ClauseRule.Binds
        { builder := (Column.mk column []).builder, encoder := some timestampEncoder })
      (tokens.map fun s => ((Token.parse s).operator, .text (Token.parse s).value))
      (cs.map Criterion.ofCondition) := by
    rw [List.forall₂_map_left_iff, List.forall₂_map_right_iff]
    apply parsed.imp
    rintro s c ⟨operator, value⟩
    exact ⟨rfl, operator, congrArg Except.ok value, Value.noConfusion, rfl⟩
  have criteriaRead : criteria (query.get Parameter.timestamp.word) = .ok
      (tokens.map fun s => ((Token.parse s).operator, .text (Token.parse s).value)) := by
    rw [given, criteria_texts]
  rcases compile_conditions rfl rfl rfl criteriaRead binds with
    ⟨distinct, members, spelled, available⟩
  refine ⟨merged, done, available, ?_⟩
  intro clause compiled x
  rw [spelled clause compiled, eq_summary_of_merge read done, admits_summary_iff]
  show (Clause.ofConditions ⟨column, []⟩ distinct).Holds (Column.mk column []).name x ↔ _
  rw [Clause.holds_ofConditions_iff]
  simp only [members]

/-- From the first second up to the third, without the second; one bound is given twice. -/
theorem holds_timestampClause_iff_admits_seconds :
    let tokens := ["gte:1", "lt:3", "lt:3.0", "ne:2"]
    let query : Query := [("timestamp", .list (tokens.map .text))]
    let clause : Clause :=
      ⟨"t.ts >= ? and t.ts < ? and t.ts <> ?",
        [.int 1000000000, .int 3000000000, .int 2000000000]⟩
    (∀ s ∈ tokens, Field.isTimestamp (.text (Token.parse s).value) = true) ∧
      (timestampClause ⟨"t.ts", []⟩ query).result = .ok clause ∧
      ∃ merged, (merge (.lenient false .standard) (tokens.map .ofToken)).result = .ok merged ∧
        ∀ x : Int, clause.Holds "t.ts" x ↔ merged.Admits x := by
  intro tokens query clause
  have valid : ∀ s ∈ tokens, Field.isTimestamp (.text (Token.parse s).value) = true := by
    decide +kernel
  have compiled : (timestampClause ⟨"t.ts", []⟩ query).result = .ok clause := by
    cbv
  have given : query.get Parameter.timestamp.word = .list (tokens.map .text) := rfl
  rcases holds_timestampClause_iff_admits valid given "t.ts" false .standard with
    ⟨merged, done, -, agree⟩
  exact ⟨valid, compiled, merged, done, agree clause compiled⟩

end LedgerQuery.Timestamp
