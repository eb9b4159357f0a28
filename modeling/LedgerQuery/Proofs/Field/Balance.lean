import LedgerQuery.Clause.Parameter
import LedgerQuery.Proofs.Clause.Pairs
import LedgerQuery.Proofs.Field.Timestamp

/-!
# Balances in clauses

A balance is bound as it is written, so what is accepted is what a database has
to read.  The accepted texts are the decimal numbers in digits of any script,
with or without a line feed behind.  The main statement compares them with plain
literals: a text is kept exactly when it is a literal, and a clause binds
literals only, unless a decimal number has a line feed or a digit beyond the
ASCII block, or a number comes into the query without being a text.
-/

namespace LedgerQuery

namespace Field

open Text (line)

/-! ## Spelling -/

/-- A text consists of digits, at least one. -/
def IsRunOf (digit : Char → Bool) (cs : List Char) : Prop :=
  cs ≠ [] ∧ ∀ c ∈ cs, digit c = true

/-- A text is a run of digits, or two of them with a point between. -/
inductive SpellsUnsigned (digit : Char → Bool) : List Char → Prop where
  | whole {whole : List Char} (run : IsRunOf digit whole) : SpellsUnsigned digit whole
  | fraction {whole places : List Char} (run : IsRunOf digit whole)
      (placesRun : IsRunOf digit places) :
      SpellsUnsigned digit (['.'].intercalate [whole, places])

/-- A text is a decimal number in such digits, perhaps with a minus sign in front. -/
inductive SpellsDecimal (digit : Char → Bool) : List Char → Prop where
  | unsigned {cs : List Char} (body : SpellsUnsigned digit cs) : SpellsDecimal digit cs
  | negative {cs : List Char} (body : SpellsUnsigned digit cs) : SpellsDecimal digit ('-' :: cs)

section Spelled

variable {digit wider : Char → Bool} {cs : List Char}

theorem SpellsUnsigned.digit_or_point (spelled : SpellsUnsigned digit cs) :
    ∀ c ∈ cs, digit c = true ∨ c = '.' := by
  cases spelled with
  | whole run => exact fun c member => Or.inl (run.2 c member)
  | @fraction whole places run placesRun =>
    have written : ['.'].intercalate [whole, places] = whole ++ '.' :: places := by
      simp [List.intercalate]
    rw [written, List.forall_mem_append, List.forall_mem_cons]
    exact ⟨fun c member => Or.inl (run.2 c member), Or.inr rfl,
      fun c member => Or.inl (placesRun.2 c member)⟩

theorem SpellsDecimal.digit_or_mark (spelled : SpellsDecimal digit cs) :
    ∀ c ∈ cs, digit c = true ∨ c = '.' ∨ c = '-' := by
  have wide {ds : List Char} (body : SpellsUnsigned digit ds) :
      ∀ c ∈ ds, digit c = true ∨ c = '.' ∨ c = '-' :=
    fun c member => (body.digit_or_point c member).imp_right Or.inl
  cases spelled with
  | unsigned body => exact wide body
  | negative body => exact List.forall_mem_cons.mpr ⟨Or.inr (Or.inr rfl), wide body⟩

theorem IsRunOf.imp (run : IsRunOf digit cs)
    (implied : ∀ c ∈ cs, digit c = true → wider c = true) : IsRunOf wider cs :=
  ⟨run.1, fun c member => implied c member (run.2 c member)⟩

theorem SpellsUnsigned.imp (spelled : SpellsUnsigned digit cs)
    (implied : ∀ c ∈ cs, digit c = true → wider c = true) : SpellsUnsigned wider cs := by
  cases spelled with
  | whole run => exact .whole (run.imp implied)
  | fraction run placesRun =>
    exact .fraction (run.imp fun c member => implied c (by simp [List.intercalate, member]))
      (placesRun.imp fun c member => implied c (by simp [List.intercalate, member]))

theorem SpellsDecimal.imp (spelled : SpellsDecimal digit cs)
    (implied : ∀ c ∈ cs, digit c = true → wider c = true) : SpellsDecimal wider cs := by
  cases spelled with
  | unsigned body => exact .unsigned (body.imp implied)
  | negative body =>
    exact .negative (body.imp fun c member => implied c (List.mem_cons_of_mem _ member))

end Spelled

/-! ## Accepted texts -/

theorem isDigits_iff {cs : List Char} : isDigits cs = true ↔ IsRunOf Text.isDigit cs := by
  rw [isDigits, Bool.and_eq_true, Bool.not_eq_true', List.isEmpty_eq_false_iff, List.all_eq_true,
    IsRunOf]

theorem isDecimal_iff {cs : List Char} :
    isDecimal cs = true ↔ SpellsUnsigned Text.isDigit cs := by
  constructor
  · intro accepted
    rw [isDecimal] at accepted
    have joined : ['.'].intercalate (cs.splitOn '.') = cs := List.intercalate_splitOn '.'
    rw [← joined]
    split at accepted
    · next whole pieces =>
      rw [pieces, List.intercalate_singleton]
      exact .whole (isDigits_iff.mp accepted)
    · next whole places pieces =>
      rw [Bool.and_eq_true] at accepted
      rw [pieces]
      exact .fraction (isDigits_iff.mp accepted.1) (isDigits_iff.mp accepted.2)
    · cases accepted
  · have noPoint {run : List Char} (isRun : IsRunOf Text.isDigit run) : '.' ∉ run :=
      Numeral.notMem_of_isDigit isRun.2 (by decide)
    intro spelled
    rw [isDecimal]
    cases spelled with
    | whole run =>
      rw [List.splitOn_eq_singleton (noPoint run)]
      exact isDigits_iff.mpr run
    | fraction run placesRun =>
      rw [splitOn_fraction (noPoint run) (noPoint placesRun)]
      show (_ && _) = true
      rw [isDigits_iff.mpr run, isDigits_iff.mpr placesRun]
      rfl

/-- The accepted texts are the decimal numbers in digits of any script, with or without a line feed
behind. -/
theorem isNumeric_text_iff {s : String} :
    isNumeric (.text s) = true ↔ SpellsDecimal Text.isDigit (line s.toList) := by
  have text : isNumeric (.text s) = isDecimalText s := rfl
  rw [text, isDecimalText.eq_def]
  generalize line s.toList = cs
  constructor
  · intro accepted
    split at accepted
    · exact .negative (isDecimal_iff.mp accepted)
    · exact .unsigned (isDecimal_iff.mp accepted)
  · intro spelled
    cases spelled with
    | negative body => exact isDecimal_iff.mpr body
    | unsigned body =>
      split
      · -- A number without a sign does not begin with one.
        rcases body.digit_or_point '-' List.mem_cons_self with digit | point
        · exact absurd digit (by decide)
        · exact absurd point (by decide)
      · exact isDecimal_iff.mpr body

/-! ## Literals -/

/-- A value is the text of a decimal number in ASCII digits. -/
def IsLiteral (v : Value) : Prop :=
  ∃ s, v = .text s ∧ SpellsDecimal Char.isDigit s.toList

theorem isDigit_of_ascii {c : Char} (ascii : c.toNat < 128) : Text.isDigit c = c.isDigit := by
  rw [Text.isDigit, Text.digitValue?, if_pos ascii]
  cases c.isDigit <;> rfl

/-- The literals among the texts are the decimal numbers without a line feed and without digits
beyond the ASCII block. -/
theorem isLiteral_text_iff {s : String} :
    IsLiteral (.text s) ↔
      SpellsDecimal Text.isDigit (line s.toList) ∧
        ∀ c ∈ s.toList, c ≠ '\n' ∧ c.toNat < 128 := by
  have ownLine (noFeed : ∀ c ∈ s.toList, c ≠ '\n' ∧ c.toNat < 128) :
      line s.toList = s.toList := by
    apply Text.line_eq_self
    intro last
    exact (noFeed '\n' (List.mem_of_getLast? last)).1 rfl
  constructor
  · rintro ⟨t, same, spelled⟩
    rcases Value.text.inj same with rfl
    have plain : ∀ c ∈ s.toList, c ≠ '\n' ∧ c.toNat < 128 := by
      intro c member
      rcases spelled.digit_or_mark c member with digit | rfl | rfl
      · have last : c.toNat ≤ 57 := (Char.isDigit_iff_toNat.mp digit).2
        refine ⟨?_, by omega⟩
        rintro rfl
        exact absurd digit (by decide)
      · decide
      · decide
    rw [ownLine plain]
    refine ⟨spelled.imp ?_, plain⟩
    intro c member digit
    rwa [isDigit_of_ascii (plain c member).2]
  · rintro ⟨spelled, plain⟩
    rw [ownLine plain] at spelled
    refine ⟨s, rfl, spelled.imp ?_⟩
    intro c member digit
    rwa [isDigit_of_ascii (plain c member).2] at digit

theorem IsLiteral.isNumeric {v : Value} (literal : IsLiteral v) : isNumeric v = true := by
  rcases literal with ⟨s, rfl, spelled⟩
  exact isNumeric_text_iff.mpr (isLiteral_text_iff.mp ⟨s, rfl, spelled⟩).1

/-- A literal is kept as it is, and anything else is dropped. -/
def KeepsLiterals (v : Value) : Prop :=
  (IsLiteral v ∧ parseBalance v = v) ∨ (¬IsLiteral v ∧ parseBalance v = .null)

theorem keepsLiterals_iff {v : Value} : KeepsLiterals v ↔ (isNumeric v = true → IsLiteral v) := by
  rw [KeepsLiterals, parseBalance]
  by_cases numeric : isNumeric v = true
  · rw [if_pos numeric]
    constructor
    · rintro (⟨literal, -⟩ | ⟨-, rfl⟩) -
      · exact literal
      · cases numeric
    · intro implied
      exact Or.inl ⟨implied numeric, rfl⟩
  · rw [if_neg numeric]
    exact iff_of_true (Or.inr ⟨mt IsLiteral.isNumeric numeric, rfl⟩)
      fun impossible => absurd impossible numeric

end Field

/-! ## Clauses -/

/-- A text or a whole number as a value. -/
def Value.ofTextOrInt : String ⊕ Int → Value :=
  Sum.elim .text .int

theorem Value.isKeyKind_ofTextOrInt : IsKeyKind ofTextOrInt where
  faithful := by
    rintro (s | n) (t | m) <;> simp [ofTextOrInt, equal, spelling]
  isKey := by
    rintro (s | n) <;> rfl
  present := by
    rintro (s | n) <;> exact Value.noConfusion

theorem Field.exists_of_isNumeric {v : Value} (numeric : isNumeric v = true) :
    ∃ a, v = Value.ofTextOrInt a := by
  cases v with
  | text s => exact ⟨.inl s, rfl⟩
  | int n => exact ⟨.inr n, rfl⟩
  | operator o =>
    have noNumber : ∀ o : Operator, isNumeric (.operator o) = false := by
      rintro (_ | _) <;> rfl
    rw [noNumber o] at numeric
    cases numeric
  | null | bool | float | bytes | list | tuple | entity | pair | cursor | map => cases numeric

/-- A criterion is bound as it is if its value is numeric, and dropped otherwise. -/
theorem binds_balance_iff {rule : ClauseRule} (encoder : rule.encoder = some balanceEncoder)
    (unrestricted : rule.allowed = none) {c bound : Criterion} :
    rule.Binds c bound ↔ bound = c ∧ Field.isNumeric c.2 = true := by
  have encodes : encodeWith rule.encoder c.2 = .ok (Field.parseBalance c.2) := by
    rw [encoder]
    rfl
  constructor
  · intro binds
    have kept : Field.parseBalance c.2 = bound.2 :=
      Except.ok.inj (encodes.symm.trans binds.encoded)
    rw [Field.parseBalance] at kept
    split at kept
    · next numeric => exact ⟨Prod.ext binds.operator kept.symm, numeric⟩
    · exact absurd kept.symm binds.retained
  · rintro ⟨rfl, numeric⟩
    rw [Field.parseBalance, if_pos numeric] at encodes
    have allowed : rule.allows bound.1 = true := by
      rw [ClauseRule.allows, unrestricted]
    rcases Field.exists_of_isNumeric numeric with ⟨a, ofKind⟩
    refine ⟨allowed, rfl, encodes, ?_, ?_⟩
    · rw [ofKind]
      exact Value.isKeyKind_ofTextOrInt.present a
    · rw [ofKind]
      exact Value.isKeyKind_ofTextOrInt.isKey a

/-- A clause of balances binds the numeric values of its criteria. -/
theorem mem_values_balanceClause {column : String} {query : Query} {clause : Clause}
    (compiled : (balanceClause column query).result = .ok clause) :
    ∃ found, criteria (query.get Parameter.accountBalance.word) = .ok found ∧
      ∀ v, v ∈ clause.values ↔ ∃ c ∈ found, Field.isNumeric c.2 = true ∧ c.2 = v := by
  let rule : ClauseRule :=
    { builder := (Column.mk column []).builder, encoder := some balanceEncoder }
  have binds {c bound : Criterion} :
      rule.Binds c bound ↔ bound = c ∧ Field.isNumeric c.2 = true :=
    binds_balance_iff rfl rfl
  have forms : ∀ c bound, rule.Binds c bound → ∃ a, bound.2 = Value.ofTextOrInt a := by
    intro c bound isBound
    rcases binds.mp isBound with ⟨rfl, numeric⟩
    exact Field.exists_of_isNumeric numeric
  have builder : rule.builder = (Column.mk column []).builder := rfl
  rcases mem_values_of_compile Value.isKeyKind_ofTextOrInt builder compiled forms with
    ⟨found, read, values⟩
  refine ⟨found, read, ?_⟩
  intro v
  rw [values]
  constructor
  · rintro ⟨c, member, bound, isBound, rfl⟩
    rcases binds.mp isBound with ⟨rfl, numeric⟩
    exact ⟨bound, member, numeric, rfl⟩
  · rintro ⟨c, member, numeric, rfl⟩
    exact ⟨c, member, c, binds.mpr ⟨rfl, numeric⟩, rfl⟩

/-- All values of a clause are literals. -/
def Clause.BindsLiterals (clause : Clause) : Prop :=
  ∀ v ∈ clause.values, Field.IsLiteral v

/--
A balance is kept if it is a literal and dropped otherwise, with the exception of
decimal numbers that have a line feed behind them or digits beyond the ASCII
block.  A clause of balances binds literals only exactly when no value of its
criteria is such an exception.
-/
theorem balance_literals (s column : String) (query : Query) :
    (Field.KeepsLiterals (.text s) ↔
        (Field.SpellsDecimal Text.isDigit (Text.line s.toList) →
          ∀ c ∈ s.toList, c ≠ '\n' ∧ c.toNat < 128)) ∧
      ∀ clause, (balanceClause column query).result = .ok clause →
        ∃ found, criteria (query.get Parameter.accountBalance.word) = .ok found ∧
          (clause.BindsLiterals ↔ ∀ c ∈ found, Field.KeepsLiterals c.2) := by
  constructor
  · rw [Field.keepsLiterals_iff, Field.isNumeric_text_iff, Field.isLiteral_text_iff]
    exact imp_congr_right fun spelled => and_iff_right spelled
  · intro clause compiled
    rcases mem_values_balanceClause compiled with ⟨found, read, values⟩
    refine ⟨found, read, ?_⟩
    constructor
    · intro literals c member
      rw [Field.keepsLiterals_iff]
      intro numeric
      exact literals c.2 ((values c.2).mpr ⟨c, member, numeric, rfl⟩)
    · intro keeps v bound
      rcases (values v).mp bound with ⟨c, member, numeric, rfl⟩
      exact Field.keepsLiterals_iff.mp (keeps c member) numeric

/-- A signed fraction is bound as it is written, and a word is dropped. -/
theorem balance_literals_signed :
    let query : Query := [("account.balance", .list [.text "gte:-0.50", .text "ne:x"])]
    let clause : Clause := ⟨"b >= ?", [.text "-0.50"]⟩
    (balanceClause "b" query).result = .ok clause ∧ clause.BindsLiterals := by
  intro query clause
  have compiled : (balanceClause "b" query).result = .ok clause := by cbv
  refine ⟨compiled, ?_⟩
  rcases (balance_literals "-0.50" "b" query).2 clause compiled with ⟨found, read, decides⟩
  have ascii {s : String} (plain : s.toList.all fun c => c != '\n' && c.toNat < 128) :
      Field.KeepsLiterals (.text s) := by
    apply (balance_literals s "b" query).1.mpr
    intro _ c member
    have both := List.all_eq_true.mp plain c member
    rwa [Bool.and_eq_true, bne_iff_ne, decide_eq_true_eq] at both
  have criteria : found = [(.gte, .text "-0.50"), (.ne, .text "x")] :=
    Except.ok.inj (read.symm.trans (by cbv))
  rw [decides, criteria, List.forall_mem_cons, List.forall_mem_singleton]
  exact ⟨ascii (by decide +kernel), ascii (by decide +kernel)⟩

set_option maxRecDepth 4000 in
/-- A digit of another script and a digit with a line feed behind it are bound as they are. -/
theorem balance_literals_refuted :
    let query : Query := [("account.balance", .list [.text "gte:\u0663", .text "5\n"])]
    let clause : Clause := ⟨"b >= ? and b = ?", [.text "\u0663", .text "5\n"]⟩
    (balanceClause "b" query).result = .ok clause ∧
      (∀ v ∈ clause.values, Field.parseBalance v = v ∧ ¬Field.IsLiteral v) ∧
      ¬clause.BindsLiterals := by
  intro query clause
  have kept : ∀ v ∈ clause.values, Field.parseBalance v = v ∧ ¬Field.IsLiteral v := by
    rw [List.forall_mem_cons, List.forall_mem_singleton]
    refine ⟨⟨if_pos (by decide +kernel), ?_⟩, if_pos (by decide +kernel), ?_⟩
    · intro literal
      have plain := (Field.isLiteral_text_iff.mp literal).2 '\u0663' List.mem_cons_self
      exact absurd plain.2 (by decide +kernel)
    · intro literal
      have plain := (Field.isLiteral_text_iff.mp literal).2 '\n' (by decide +kernel)
      exact plain.1 rfl
  refine ⟨by cbv, kept, ?_⟩
  intro literals
  exact (kept _ List.mem_cons_self).2 (literals _ List.mem_cons_self)

end LedgerQuery
