import LedgerQuery.Proofs.Clause.Part

/-!
# Pairs of a clause

The clause of a column pairs operators with values, and these pairs are read
from its text and values alone: the text is a list of comparisons with `and`
between them, at the end of which the column may be tested for being one of all
values that are left.

Where every criterion of a parameter is bound, the clause is read as the
criteria in bound form: none is missing and none is added.
-/

namespace LedgerQuery

namespace Sql

/-- Read parts of the clause of a column, each behind an `and`, with their values. -/
def readParts (column : String) : List Char → List Value → Option (List Criterion)
  | [], [] => some []
  | cs, v :: values => do
    let part ← cs.dropPrefix? Clause.conjunction.toList
    match readComparison (columnName column) part with
    | some (operator, rest) =>
      let others ← readParts column rest values
      return (operator, v) :: others
    | none =>
      if part = ((Column.mk column []).membership (values.length + 1)).toList then
        some ((v :: values).map fun w => (.eq, w))
      else none
  | _, _ => none

end Sql

/-- The pairs of operators and values that the clause of a column is made of. -/
def Clause.pairs? (column : String) (clause : Clause) : Option (List Criterion) :=
  match clause.values with
  | [] => if clause.text.isEmpty then some [] else none
  | values => Sql.readParts column (conjunction.toList ++ clause.text.toList) values

/-! ## Reading undoes writing -/

namespace Sql

/-- A membership test is no comparison. -/
theorem readComparison_membership (column : Column) (count : Nat) :
    readComparison (columnName column.name) (column.membership count).toList = none := by
  have written : (column.membership count).toList =
      (columnName column.name ++ [' ']) ++
        ("IN".toList ++ ' ' :: '(' :: ((", ".intercalate (List.replicate count "?")).toList ++
          [')'])) := by
    rw [Column.membership]
    simp
  have word : ∀ c ∈ "IN".toList, (c != ' ') = true := List.all_eq_true.mp (by decide)
  rw [readComparison, written, List.dropPrefix?_append_of_beq _ BEq.rfl, Option.bind_eq_bind,
    Option.bind_some, List.takeWhile_append_of_pos word, List.takeWhile_cons_of_neg (by decide),
    List.append_nil]
  rfl

/-- A membership test is read with all values that are left. -/
theorem readParts_membership (column : String) (v : Value) (values : List Value) :
    readParts column
        (Clause.conjunction.toList ++
          ((Column.mk column []).membership (values.length + 1)).toList)
        (v :: values) =
      some ((v :: values).map fun w => (.eq, w)) := by
  have noComparison := readComparison_membership ⟨column, []⟩ (values.length + 1)
  rw [readParts, List.dropPrefix?_append_of_beq _ BEq.rfl, Option.bind_eq_bind, Option.bind_some,
    noComparison]
  exact if_pos rfl

theorem readParts_comparison
    (column : Column) (operator : Operator) (v : Value) (rest : List Char) (values : List Value) :
    readParts column.name
        (Clause.conjunction.toList ++ ((column.comparison operator).toList ++ rest))
        (v :: values) =
      (readParts column.name rest values).map fun others => (operator, v) :: others := by
  rw [readParts, List.dropPrefix?_append_of_beq _ BEq.rfl, Option.bind_eq_bind, Option.bind_some,
    readComparison_comparison]
  dsimp only
  cases readParts column.name rest values <;> rfl

/-- Comparisons, and a membership test at the end if there are values for one, are read as what
they ask for. -/
theorem readParts_parts (column : Column) (cs : List Criterion) (values : List Value) :
    let parts : List Column.Part := cs.map (fun c => .comparison c.1 c.2) ++
      if values.isEmpty then [] else [.membership false values]
    readParts column.name
        (parts.flatMap fun part =>
          Clause.conjunction.toList ++ (column.partText anonymousMark 1 part).toList)
        (parts.flatMap Column.Part.values) =
      some (cs ++ values.map fun v => (.eq, v)) := by
  dsimp only
  induction cs with
  | nil =>
    cases values with
    | nil => rfl
    | cons v values =>
      have written : column.partText anonymousMark 1 (.membership false (v :: values)) =
          (Column.mk column.name []).membership (values.length + 1) := by
        rw [Column.partText_membership]
        simp [Column.membership]
      have read := readParts_membership column.name v values
      rw [← written] at read
      simpa [Column.Part.values] using read
  | cons c cs ih =>
    rw [List.map_cons, List.cons_append, List.flatMap_cons, List.flatMap_cons, List.append_assoc,
      Column.partText_comparison]
    have first := readParts_comparison column c.1 c.2
    rw [Column.Part.values, List.singleton_append, first, ih]
    rfl

end Sql

theorem Clause.pairs?_of_values
    {clause : Clause} (some : clause.values ≠ []) (column : String) :
    clause.pairs? column =
      Sql.readParts column (conjunction.toList ++ clause.text.toList) clause.values := by
  rw [pairs?]
  split
  · next none => exact absurd none some
  · rfl

/-- The clause of comparisons and perhaps a membership test is read as what these ask for. -/
theorem Clause.pairs?_ofParts (column : Column) (cs : List Criterion) (values : List Value) :
    (ofParts column (cs.map (fun c => .comparison c.1 c.2) ++
        if values.isEmpty then [] else [.membership false values])).pairs? column.name =
      some (cs ++ values.map fun v => (.eq, v)) := by
  have read := Sql.readParts_parts column cs values
  dsimp only at read
  generalize given : (cs.map (fun c => .comparison c.1 c.2) ++
    if values.isEmpty then [] else [.membership false values] : List Column.Part) = parts at read ⊢
  cases parts with
  | nil =>
    rw [List.append_eq_nil_iff, List.map_eq_nil_iff] at given
    rcases given with ⟨rfl, noValues⟩
    cases values with
    | nil => rfl
    | cons v values => cases noValues
  | cons part parts =>
    have someValue : (ofParts column (part :: parts)).values ≠ [] := by
      intro none
      have noValues : (part :: parts).flatMap Column.Part.values = [] := none
      rw [noValues, List.flatMap_cons, List.append_assoc] at read
      cases read
    rw [pairs?_of_values someValue, toList_ofParts]
    exact read

/-! ## Compiled clauses -/

section Compiled

variable {rule : ClauseRule} {column : Column}

/-- Every retained criterion gets a comparison of its own or its value is gathered. -/
theorem own_or_gathered_iff
    (plain : rule.gatherEq = true → column.rendered .eq = .eq)
    {retained : List Criterion} {c : Criterion} :
    (∃ r ∈ ownCriteria rule retained, (column.rendered r.1, r.2) = c) ∨
        (∃ v ∈ gatheredValues rule retained, (.eq, v) = c) ↔
      ∃ r ∈ retained, (column.rendered r.1, r.2) = c := by
  constructor
  · rintro (⟨r, own, same⟩ | ⟨v, gathered, same⟩)
    · exact ⟨r, List.mem_of_mem_filter own, same⟩
    · rcases List.mem_map.mp gathered with ⟨r, inside, rfl⟩
      rcases List.mem_filter.mp inside with ⟨kept, gathers⟩
      -- What is gathered asks for equality, which stands for itself.
      rw [Bool.and_eq_true, beq_iff_eq] at gathers
      exact ⟨r, kept, by rw [gathers.2, plain gathers.1, same]⟩
  · rintro ⟨r, kept, same⟩
    cases gathers : rule.gatherEq && r.1 == .eq with
    | false => exact Or.inl ⟨r, List.mem_filter.mpr ⟨kept, by rw [gathers]; rfl⟩, same⟩
    | true =>
      refine Or.inr ⟨r.2, List.mem_map_of_mem (List.mem_filter.mpr ⟨kept, gathers⟩), ?_⟩
      rw [Bool.and_eq_true, beq_iff_eq] at gathers
      rw [← same, gathers.2, plain gathers.1]

/-- Where equality stands for itself as far as it is gathered, the clause of what is retained is
read as the retained criteria with the operators that stand for theirs. -/
theorem exists_pairs_ofParts
    (plain : rule.gatherEq = true → column.rendered .eq = .eq) (retained : List Criterion) :
    ∃ pairs,
      (Clause.ofParts column (column.parts rule retained)).pairs? column.name = some pairs ∧
      ∀ c, c ∈ pairs ↔ ∃ r ∈ retained, (column.rendered r.1, r.2) = c := by
  have parts : column.parts rule retained =
      ((ownCriteria rule retained).map fun r => (column.rendered r.1, r.2)).map
          (fun c => .comparison c.1 c.2) ++
        if (gatheredValues rule retained).isEmpty then []
        else [.membership false (gatheredValues rule retained)] := by
    rw [Column.parts, List.map_map]
    cases gathers : rule.gatherEq with
    | true =>
      rw [plain gathers]
      rfl
    | false =>
      rw [gatheredValues_of_apart gathers]
      rfl
  refine ⟨_, by rw [parts, Clause.pairs?_ofParts], ?_⟩
  intro c
  rw [List.mem_append, List.mem_map, List.mem_map, own_or_gathered_iff plain]

/-- What a token asks for in the clause of a column, with its value in bound form. -/
def encodeToken (column : Column) (encoder : Encoder) (s : String) : Except Fault Criterion := do
  let value ← encoder (.text (Token.parse s).value)
  return (column.rendered (Token.parse s).operator, value)

/-- Every token has a bound form, and the clause pairs operators and values as the bound forms of
the tokens do. -/
def Clause.Spells (clause : Clause) (column : Column) (encoder : Encoder) (tokens : List String) :
    Prop :=
  ∃ pairs asked, clause.pairs? column.name = some pairs ∧
    tokens.mapM (encodeToken column encoder) = .ok asked ∧ ∀ c, c ∈ pairs ↔ c ∈ asked

section Kind

variable {α : Type} {value : α → Value} (kind : Value.IsKeyKind value)

include kind

/-- Tokens whose values have bound forms of a kind are bound, and these forms are what they ask
for. -/
theorem exists_bounds
    (column : Column)
    {encoder : Encoder} (encoded : rule.encoder = some encoder) (unrestricted : rule.allowed = none)
    {tokens : List String}
    (bound : ∀ s ∈ tokens, ∃ a, encoder (.text (Token.parse s).value) = .ok (value a)) :
    ∃ bounds : List (Operator × α),
      List.Forall₂ rule.Binds
        (tokens.map fun s => ((Token.parse s).operator, .text (Token.parse s).value))
        (bounds.map (Criterion.ofKind value)) ∧
      tokens.mapM (encodeToken column encoder) =
        .ok (bounds.map fun b => (column.rendered b.1, value b.2)) := by
  have each : ∀ s ∈ tokens, ∃ b : Operator × α, b.1 = (Token.parse s).operator ∧
      encoder (.text (Token.parse s).value) = .ok (value b.2) := by
    intro s member
    rcases bound s member with ⟨a, done⟩
    exact ⟨((Token.parse s).operator, a), rfl, done⟩
  rcases exists_forall₂ each with ⟨bounds, bounded⟩
  refine ⟨bounds, ?_, ?_⟩
  · rw [List.forall₂_map_left_iff, List.forall₂_map_right_iff]
    apply bounded.imp
    rintro s b ⟨operator, done⟩
    have allowed : rule.allows (Token.parse s).operator = true := by
      rw [ClauseRule.allows, unrestricted]
    have encodes : encodeWith rule.encoder (.text (Token.parse s).value) = .ok (value b.2) := by
      rw [encoded]
      exact done
    exact ⟨allowed, operator, encodes, kind.present b.2, kind.isKey b.2⟩
  · rw [mapM_eq_ok_iff, List.forall₂_map_right_iff]
    apply bounded.imp
    rintro s b ⟨operator, done⟩
    rw [encodeToken, done, operator]
    rfl

/-- Where what criteria are bound to is of one kind, a clause binds these forms and nothing else. -/
theorem mem_values_of_compile
    (builder : rule.builder = column.builder)
    {raw : Value} {clause : Clause} (compiled : (compile rule raw).result = .ok clause)
    (forms : ∀ c bound, rule.Binds c bound → ∃ a, bound.2 = value a) :
    ∃ found, criteria raw = .ok found ∧
      ∀ v, v ∈ clause.values ↔ ∃ c ∈ found, ∃ bound, rule.Binds c bound ∧ bound.2 = v := by
  rw [result_compile] at compiled
  rcases bind_eq_ok.mp compiled with ⟨found, read, compiled⟩
  rcases bind_eq_ok.mp compiled with ⟨retained, kept, assembled⟩
  have keys : ∀ c ∈ retained, c.2.isKey = true := fun _ => isKey_of_mem_retain kept
  refine ⟨found, read, ?_⟩
  intro v
  rw [eq_ofParts_of_assemble builder keys assembled, Clause.ofParts, Column.mem_values_parts]
  constructor
  · rintro ⟨r, member, rfl⟩
    rcases binds_of_mem_retain kept member with impossible | ⟨c, inside, binds⟩
    · cases impossible
    · exact ⟨c, inside, r, binds, rfl⟩
  · rintro ⟨c, inside, bound, binds, rfl⟩
    rcases exists_mem_retain_of_binds kept inside binds with ⟨r, member, rfl | same⟩
    · exact ⟨r, member, rfl⟩
    · -- What asks for the same holds the same value, as both values are of the kind.
      rcases binds_of_mem_retain kept member with impossible | ⟨d, -, bindsOther⟩
      · cases impossible
      rcases forms c bound binds with ⟨a, ofKind⟩
      rcases forms d r bindsOther with ⟨b, ofKindOther⟩
      rw [Criterion.same, Bool.and_eq_true, ofKind, ofKindOther, kind.faithful] at same
      exact ⟨r, member, by rw [ofKindOther, ofKind, same.2]⟩

/-- Where each token has a bound form of a kind, there is a clause, and it spells out what the
tokens ask for. -/
theorem exists_compile_spells
    (builder : rule.builder = column.builder) (noEscape : '\\' ∉ column.name.toList)
    (plain : rule.gatherEq = true → column.rendered .eq = .eq)
    {encoder : Encoder} (encoded : rule.encoder = some encoder) (unrestricted : rule.allowed = none)
    {raw : Value} {tokens : List String}
    (read : criteria raw =
      .ok (tokens.map fun s => ((Token.parse s).operator, .text (Token.parse s).value)))
    (bound : ∀ s ∈ tokens, ∃ a, encoder (.text (Token.parse s).value) = .ok (value a)) :
    ∃ clause, (compile rule raw).result = .ok clause ∧ clause.Spells column encoder tokens := by
  rcases exists_bounds kind column encoded unrestricted bound with
    ⟨bounds, binds, asked⟩
  rcases result_compile_of_binds read (Criterion.same_ofKind kind) binds with
    ⟨distinct, members, compiled⟩
  have keys : ∀ c ∈ distinct.map (Criterion.ofKind value), c.2.isKey = true := by
    rw [List.forall_mem_map]
    intro b _
    exact kind.isKey b.2
  have listed : gatheredValues rule (distinct.map (Criterion.ofKind value)) ≠ [] →
      column.HasListForm := by
    intro gathered
    cases gathers : rule.gatherEq with
    | true => exact Or.inl (plain gathers)
    | false => exact absurd (gatheredValues_of_apart gathers _) gathered
  rcases exists_assemble builder noEscape keys listed with ⟨clause, assembled⟩
  rcases exists_pairs_ofParts plain (distinct.map (Criterion.ofKind value)) with
    ⟨pairs, spelled, complete⟩
  rw [← eq_ofParts_of_assemble builder keys assembled] at spelled
  refine ⟨clause, compiled.trans assembled, pairs, _, spelled, asked, ?_⟩
  intro c
  rw [complete, List.mem_map]
  constructor
  · rintro ⟨r, inside, same⟩
    rcases List.mem_map.mp inside with ⟨b, kept, rfl⟩
    exact ⟨b, (members b).mp kept, same⟩
  · rintro ⟨b, inside, same⟩
    exact ⟨Criterion.ofKind value b, List.mem_map_of_mem ((members b).mpr inside), same⟩

end Kind

end Compiled

end LedgerQuery
