import LedgerQuery.Proofs.Clause.Reading
import LedgerQuery.Proofs.Clause.Retain
import LedgerQuery.Proofs.Sql.Column

/-!
# Fragments of a column

A column is compared with a value or tested for being one of several values.
Every clause of a column is a list of such parts, and its text is written with
one mark for each value: with question marks as it is compiled, with dollar
signs and consecutive numbers in the numbered style.  The main statement says
so for every column whose name has no backslash, whatever the name holds, and
that a list of values for an operator without a list form is all that can be
wrong with a clause of a column.
-/

namespace LedgerQuery

namespace Sql

/-- The mark of a placeholder without a number. -/
def anonymousMark (_ : Nat) : String :=
  "?"

/-- The mark of a placeholder with its number. -/
def numberedMark (n : Nat) : String :=
  "$" ++ Numeral.write n

end Sql

namespace Column

/-- A fragment of the clause of a column. -/
inductive Part where
  /-- The column is compared with a value. -/
  | comparison (operator : Operator) (value : Value)
  /-- The column is one of several values, or none of them. -/
  | membership (excluded : Bool) (values : List Value)

/-- The values of a part, in the order of their marks. -/
def Part.values : Part → List Value
  | comparison _ value => [value]
  | membership _ values => values

/-- The marks of a number of values in a row, from a number on. -/
def marks (mark : Nat → String) (first count : Nat) : String :=
  ", ".intercalate ((List.range' first count).map mark)

/-- The text of a part, with marks from a number on. -/
def partText (column : Column) (mark : Nat → String) (first : Nat) : Part → String
  | .comparison operator _ =>
    String.ofList (Sql.columnName column.name) ++ sign operator ++ mark first
  | .membership excluded values =>
    (if excluded then "NOT " else "") ++ String.ofList (Sql.columnName column.name) ++ " IN (" ++
      marks mark first values.length ++ ")"

/-- The texts of parts, with marks that are numbered through from a number on. -/
def texts (column : Column) (mark : Nat → String) : Nat → List Part → List String
  | _, [] => []
  | first, part :: parts =>
    column.partText mark first part :: column.texts mark (first + part.values.length) parts

/-- The text of parts joined by `and`, with marks numbered from one on. -/
def conjunctionText (column : Column) (mark : Nat → String) (parts : List Part) : String :=
  Clause.conjunction.intercalate (column.texts mark 1 parts)

/-- The parts of the clause of retained criteria. -/
def parts (column : Column) (rule : ClauseRule) (retained : List Criterion) : List Part :=
  (ownCriteria rule retained).map (fun c => .comparison (column.rendered c.1) c.2) ++
    if (gatheredValues rule retained).isEmpty then []
    else [.membership (column.rendered .eq == .ne) (gatheredValues rule retained)]

end Column

/-- The clause of the parts of a column. -/
def Clause.ofParts (column : Column) (parts : List Column.Part) : Clause :=
  ⟨column.conjunctionText Sql.anonymousMark parts, parts.flatMap Column.Part.values⟩

/-! ## Texts of parts -/

namespace Column

variable (column : Column)

theorem partText_comparison (first : Nat) (operator : Operator) (value : Value) :
    column.partText Sql.anonymousMark first (.comparison operator value) =
      column.comparison operator := rfl

theorem partText_membership (first : Nat) (excluded : Bool) (values : List Value) :
    column.partText Sql.anonymousMark first (.membership excluded values) =
      (if excluded then "NOT " else "") ++ column.membership values.length := by
  have same : (List.range' first values.length).map Sql.anonymousMark =
      List.replicate values.length "?" := by
    show (List.range' first values.length).map (fun _ => "?") = _
    rw [List.map_const', List.length_range']
  rw [partText, marks, same, membership]
  simp only [String.append_assoc]

theorem texts_anonymous (first : Nat) (parts : List Part) :
    column.texts Sql.anonymousMark first parts =
      parts.map (column.partText Sql.anonymousMark 1) := by
  induction parts generalizing first with
  | nil => rfl
  | cons part parts ih =>
    have same : column.partText Sql.anonymousMark first part =
        column.partText Sql.anonymousMark 1 part := by
      cases part with
      | comparison operator value => rfl
      | membership excluded values => rw [partText_membership, partText_membership]
    rw [texts, ih, same, List.map_cons]

theorem toList_marks (mark : Nat → String) (first count : Nat) :
    (marks mark first (count + 1)).toList =
      (mark first).toList ++
        (List.range' (first + 1) count).flatMap fun n => ", ".toList ++ (mark n).toList := by
  rw [marks, List.range'_succ, List.map_cons, toList_intercalate, List.flatMap_map]

end Column

/-- The text of a clause of parts, behind an `and`, is that of each part behind an `and`. -/
theorem Clause.toList_ofParts (column : Column) (part : Column.Part) (parts : List Column.Part) :
    conjunction.toList ++ (ofParts column (part :: parts)).text.toList =
      (part :: parts).flatMap fun part =>
        conjunction.toList ++ (column.partText Sql.anonymousMark 1 part).toList := by
  rw [ofParts, Column.conjunctionText, Column.texts_anonymous, List.map_cons,
    toList_intercalate, List.flatMap_map, List.flatMap_cons, List.append_assoc]

/-! ## Placeholders of parts -/

namespace Column

open Sql (Renders IsSilent Avoids)

theorem renders_mark (last first : Nat) :
    Renders last 1 (Sql.anonymousMark first).toList (Sql.numberedMark (last + 1)).toList := by
  have question : (Sql.anonymousMark first).toList = ['?'] := by simp [Sql.anonymousMark]
  have dollar : (Sql.numberedMark (last + 1)).toList = '$' :: Numeral.decimal (last + 1) := by
    simp [Sql.numberedMark, Numeral.write]
  rw [question, dollar]
  exact Renders.question

theorem avoids_furtherMarks (first count : Nat) :
    Avoids Sql.continuesQuestion
      ((List.range' first count).flatMap fun n =>
        ", ".toList ++ (Sql.anonymousMark n).toList) := by
  cases count with
  | zero => exact Sql.avoids_nil
  | succ count =>
    rw [List.range'_succ, List.flatMap_cons]
    exact Sql.avoids_cons.mpr (by decide)

/-- Further marks of a list take one number after the other. -/
theorem renders_furtherMarks (last first count : Nat) :
    Renders last count
      ((List.range' first count).flatMap fun n => ", ".toList ++ (Sql.anonymousMark n).toList)
      ((List.range' (last + 1) count).flatMap fun n =>
        ", ".toList ++ (Sql.numberedMark n).toList) := by
  induction count generalizing last first with
  | zero => exact Renders.nil
  | succ count ih =>
    have comma : IsSilent ", ".toList := .of_all (by decide)
    rw [List.range'_succ, List.range'_succ, List.flatMap_cons, List.flatMap_cons,
      List.append_assoc, List.append_assoc, Nat.add_comm count 1]
    apply Renders.silent_append comma
    exact (renders_mark last first).append (avoids_furtherMarks _ _) (ih (last + 1) (first + 1))

theorem renders_marks (last first count : Nat) :
    Renders last count (marks Sql.anonymousMark first count).toList
      (marks Sql.numberedMark (last + 1) count).toList := by
  cases count with
  | zero => exact Renders.nil
  | succ count =>
    rw [toList_marks, toList_marks, Nat.add_comm count 1]
    exact (renders_mark last first).append (avoids_furtherMarks _ _)
      (renders_furtherMarks (last + 1) (first + 1) count)

section NoEscape

variable {column : Column} (noEscape : '\\' ∉ column.name.toList)

include noEscape

theorem renders_part (last first : Nat) (part : Part) :
    Renders last part.values.length (column.partText Sql.anonymousMark first part).toList
      (column.partText Sql.numberedMark (last + 1) part).toList := by
  have name := Sql.isSilent_columnName noEscape
  cases part with
  | comparison operator value =>
    simp only [partText, String.toList_append, String.toList_ofList, List.append_assoc]
    exact .silent_append name (.silent_append (isSilent_sign operator) (renders_mark last first))
  | membership excluded values =>
    have exclusion : IsSilent (if excluded then "NOT " else "").toList := by
      cases excluded <;> exact .of_all (by decide)
    have opening : IsSilent " IN (".toList := .of_all (by decide)
    have closing : IsSilent ")".toList := .of_all (by decide)
    have stop : Avoids Sql.continuesQuestion ")".toList := Sql.avoids_cons.mpr (by decide)
    simp only [partText, String.toList_append, String.toList_ofList, List.append_assoc]
    apply Renders.silent_append exclusion
    apply Renders.silent_append name
    apply Renders.silent_append opening
    exact (renders_marks last first values.length).append stop (.of_silent closing)

/-- A part has one placeholder for each of its values. -/
theorem countQuestions_part (part : Part) :
    Sql.countQuestions (column.partText Sql.anonymousMark 1 part) = part.values.length :=
  (renders_part noEscape 0 1 part).questionCount_eq

/-- The numbers run through the parts of a clause. -/
theorem renders_texts (last first : Nat) (parts : List Part) :
    Renders last (parts.flatMap Part.values).length
      (Clause.conjunction.intercalate (column.texts Sql.anonymousMark first parts)).toList
      (Clause.conjunction.intercalate (column.texts Sql.numberedMark (last + 1) parts)).toList := by
  induction parts generalizing last first with
  | nil => exact Renders.nil
  | cons part parts ih =>
    have one := renders_part noEscape last first part
    cases parts with
    | nil =>
      rw [List.flatMap_cons, List.flatMap_nil, List.append_nil]
      simpa only [texts, String.intercalate_singleton] using one
    | cons second parts =>
      -- The numbers of the other parts begin behind those of the first.
      have more := ih (last + part.values.length) (first + part.values.length)
      have between : IsSilent Clause.conjunction.toList := .of_all (by decide)
      have stop (cs : List Char) : Avoids Sql.continuesQuestion (Clause.conjunction.toList ++ cs) :=
        Sql.avoids_cons.mpr (by decide)
      rw [Nat.add_right_comm] at more
      rw [texts, texts, texts, texts, String.intercalate_cons_cons, String.intercalate_cons_cons,
        String.toList_append, String.toList_append, String.toList_append, String.toList_append,
        List.append_assoc, List.append_assoc, List.flatMap_cons, List.length_append]
      exact one.append (stop _) (.silent_append between more)

end NoEscape

end Column

/-! ## Fragments -/

namespace Fragment

theorem ofResult_tuple
    {single : Bool} {value : Value} (several : severalValues single value = none) (text : String) :
    ofResult single (.tuple [.text text, value]) =
      if equal : Sql.countQuestions text = (boundValues value).length then
        .ok ⟨text, boundValues value, equal⟩
      else
        .error (.clause (.mismatch (Text.quoted text) (Sql.countQuestions text)
          (boundValues value).length)) := by
  rw [ofResult, several]

theorem eq_of_ofResult_tuple
    {single : Bool} {value : Value} (several : severalValues single value = none) {text : String}
    {fragment : Fragment} (checked : ofResult single (.tuple [.text text, value]) = .ok fragment) :
    fragment.text = text ∧ fragment.values = boundValues value := by
  rw [ofResult_tuple several] at checked
  split at checked
  · cases checked
    exact ⟨rfl, rfl⟩
  · cases checked

theorem exists_ofResult_tuple
    {single : Bool} {value : Value} (several : severalValues single value = none) {text : String}
    (equal : Sql.countQuestions text = (boundValues value).length) :
    ∃ fragment, ofResult single (.tuple [.text text, value]) = .ok fragment := by
  rw [ofResult_tuple several, dif_pos equal]
  exact ⟨_, rfl⟩

theorem severalValues_of_isKey {value : Value} (isKey : value.isKey = true) (single : Bool) :
    severalValues single value = none := by
  cases value <;> first | rfl | cases isKey

theorem boundValues_of_isKey {value : Value} (isKey : value.isKey = true) :
    boundValues value = [value] := by
  cases value <;> first | rfl | cases isKey

end Fragment

/-- The fragment is a part of the clause of the column. -/
structure Column.Writes (column : Column) (part : Column.Part) (fragment : Fragment) : Prop where
  text : fragment.text = column.partText Sql.anonymousMark 1 part
  values : fragment.values = part.values

theorem Clause.ofFragments_eq_ofParts
    {column : Column} {parts : List Column.Part} {fragments : List Fragment}
    (writes : List.Forall₂ column.Writes parts fragments) :
    ofFragments fragments = ofParts column parts := by
  have texts : fragments.map Fragment.text =
      parts.map (column.partText Sql.anonymousMark 1) := by
    induction writes with
    | nil => rfl
    | cons first _ ih => rw [List.map_cons, List.map_cons, first.text, ih]
  have values : fragments.flatMap Fragment.values = parts.flatMap Column.Part.values := by
    clear texts
    induction writes with
    | nil => rfl
    | cons first _ ih => rw [List.flatMap_cons, List.flatMap_cons, first.values, ih]
  rw [ofFragments, ofParts, Column.conjunctionText, Column.texts_anonymous, texts, values]

section Assemble

variable {rule : ClauseRule} {column : Column}

theorem fragmentOf_column
    (builder : rule.builder = column.builder)
    {c : Criterion} (isKey : c.2.isKey = true) :
    fragmentOf rule c =
      Fragment.ofResult rule.gatherEq
        (.tuple [.text (column.comparison (column.rendered c.1)), c.2]) := by
  have built : column.build c.1 c.2 =
      .ok (.tuple [.text (column.comparison (column.rendered c.1)), c.2]) := by
    rcases c with ⟨operator, value⟩
    cases value <;> first | rfl | cases isKey
  rw [fragmentOf, builder]
  show column.build c.1 c.2 >>= Fragment.ofResult rule.gatherEq = _
  rw [built, ok_bind]

theorem writes_of_fragmentOf
    (builder : rule.builder = column.builder)
    {c : Criterion} (isKey : c.2.isKey = true)
    {fragment : Fragment} (made : fragmentOf rule c = .ok fragment) :
    column.Writes (.comparison (column.rendered c.1) c.2) fragment := by
  rw [fragmentOf_column builder isKey] at made
  have parts := Fragment.eq_of_ofResult_tuple (Fragment.severalValues_of_isKey isKey _) made
  rw [Fragment.boundValues_of_isKey isKey] at parts
  exact ⟨parts.1, parts.2⟩

theorem exists_fragmentOf
    (builder : rule.builder = column.builder) (noEscape : '\\' ∉ column.name.toList)
    {c : Criterion} (isKey : c.2.isKey = true) :
    ∃ fragment, fragmentOf rule c = .ok fragment := by
  rw [fragmentOf_column builder isKey]
  apply Fragment.exists_ofResult_tuple (Fragment.severalValues_of_isKey isKey _)
  rw [Fragment.boundValues_of_isKey isKey]
  exact Column.countQuestions_part noEscape (.comparison (column.rendered c.1) c.2)

/-! ### Gathered values -/

/-- The operator that stands for equality has a form for several values. -/
def Column.HasListForm (column : Column) : Prop :=
  column.rendered .eq = .eq ∨ column.rendered .eq = .ne

/-- The part of the gathered values. -/
abbrev Column.gatheredPart (column : Column) (values : List Value) : Column.Part :=
  .membership (column.rendered .eq == .ne) values

theorem build_list (listed : column.HasListForm) (values : List Value) :
    column.build .eq (.list values) =
      .ok (.tuple [.text (column.partText Sql.anonymousMark 1 (column.gatheredPart values)),
        .list values]) := by
  rw [Column.partText_membership, Column.build]
  rcases listed with equality | exclusion
  · rw [equality]
    simp
  · rw [exclusion]
    rfl

theorem hasListForm_of_build_list
    {values : List Value} {result : Value} (built : column.build .eq (.list values) = .ok result) :
    column.HasListForm := by
  rw [Column.build] at built
  split at built
  · next equality => exact Or.inl equality
  · next exclusion => exact Or.inr exclusion
  · cases built

theorem gatheredFragment_cons
    (builder : rule.builder = column.builder) (v : Value) (values : List Value) :
    gatheredFragment rule (v :: values) =
      column.build .eq (.list (v :: values)) >>= fun result =>
        Fragment.ofResult false result >>= fun fragment => .ok [fragment] := by
  have built : rule.builder.buildIn (v :: values) = column.build .eq (.list (v :: values)) := by
    rw [builder]
    rfl
  rw [gatheredFragment, built]
  rfl

/-- The gathered values make up one part if there are any. -/
theorem writes_of_gatheredFragment
    (builder : rule.builder = column.builder)
    {values : List Value} {fragments : List Fragment}
    (made : gatheredFragment rule values = .ok fragments) :
    List.Forall₂ column.Writes (if values.isEmpty then [] else [column.gatheredPart values])
      fragments := by
  cases values with
  | nil =>
    cases made
    exact .nil
  | cons v values =>
    rw [gatheredFragment_cons builder] at made
    rcases bind_eq_ok.mp made with ⟨result, built, made⟩
    rcases bind_eq_ok.mp made with ⟨fragment, checked, made⟩
    cases made
    rw [build_list (hasListForm_of_build_list built)] at built
    cases built
    have parts := Fragment.eq_of_ofResult_tuple rfl checked
    exact .cons ⟨parts.1, parts.2⟩ .nil

theorem exists_gatheredFragment
    (builder : rule.builder = column.builder) (noEscape : '\\' ∉ column.name.toList)
    {values : List Value} (listed : values ≠ [] → column.HasListForm) :
    ∃ fragments, gatheredFragment rule values = .ok fragments := by
  cases values with
  | nil => exact ⟨[], rfl⟩
  | cons v values =>
    have counted := Column.countQuestions_part noEscape (column.gatheredPart (v :: values))
    have several : Fragment.severalValues false (.list (v :: values)) = none := rfl
    rcases Fragment.exists_ofResult_tuple several counted with ⟨fragment, checked⟩
    rw [gatheredFragment_cons builder, build_list (listed (List.cons_ne_nil v values)), ok_bind,
      checked]
    exact ⟨_, rfl⟩

/-! ### The clause -/

theorem ownCriteria_of_apart
    (apart : rule.gatherEq = false) (retained : List Criterion) :
    ownCriteria rule retained = retained := by
  rw [ownCriteria, apart]
  exact List.filter_eq_self.mpr fun _ _ => rfl

theorem gatheredValues_of_apart
    (apart : rule.gatherEq = false) (retained : List Criterion) :
    gatheredValues rule retained = [] := by
  rw [gatheredValues, apart]
  simp

/-- The values of the parts are those of what is retained. -/
theorem Column.mem_values_parts
    (column : Column) (rule : ClauseRule) {retained : List Criterion} {v : Value} :
    v ∈ (column.parts rule retained).flatMap Part.values ↔ ∃ c ∈ retained, c.2 = v := by
  have gathered : v ∈ List.flatMap Part.values
      (if (gatheredValues rule retained).isEmpty then []
        else [column.gatheredPart (gatheredValues rule retained)]) ↔
      v ∈ gatheredValues rule retained := by
    split
    · next nothing => rw [List.isEmpty_iff.mp nothing, List.flatMap_nil]
    · rw [List.flatMap_singleton, Part.values]
  rw [parts, List.flatMap_append, List.mem_append, gathered, List.flatMap_map]
  simp only [Part.values, List.mem_flatMap, List.mem_singleton, ownCriteria, gatheredValues,
    List.mem_map, List.mem_filter]
  constructor
  · rintro (⟨c, ⟨kept, -⟩, rfl⟩ | ⟨c, ⟨kept, -⟩, rfl⟩)
    · exact ⟨c, kept, rfl⟩
    · exact ⟨c, kept, rfl⟩
  · rintro ⟨c, kept, rfl⟩
    cases gathers : rule.gatherEq && c.1 == .eq with
    | false => exact Or.inl ⟨c, ⟨kept, by rw [gathers]; rfl⟩, rfl⟩
    | true => exact Or.inr ⟨c, ⟨kept, gathers⟩, rfl⟩

/-- A clause of a column is the clause of the parts of what is retained. -/
theorem eq_ofParts_of_assemble
    (builder : rule.builder = column.builder)
    {retained : List Criterion} (keys : ∀ c ∈ retained, c.2.isKey = true)
    {clause : Clause} (assembled : assemble rule retained = .ok clause) :
    clause = .ofParts column (column.parts rule retained) := by
  rcases bind_eq_ok.mp assembled with ⟨own, ownMade, assembled⟩
  rcases bind_eq_ok.mp assembled with ⟨gathered, gatheredMade, assembled⟩
  cases assembled
  have ownWrites : List.Forall₂ column.Writes
      ((ownCriteria rule retained).map fun c => .comparison (column.rendered c.1) c.2) own := by
    have ownKeys : ∀ c ∈ ownCriteria rule retained, c.2.isKey = true := by
      intro c member
      exact keys c (List.mem_of_mem_filter member)
    rw [List.forall₂_map_left_iff]
    apply ((List.forall₂_and_left _ _).mpr ⟨ownKeys, mapM_eq_ok_iff.mp ownMade⟩).imp
    rintro c fragment ⟨isKey, made⟩
    exact writes_of_fragmentOf builder isKey made
  exact Clause.ofFragments_eq_ofParts
    (List.rel_append ownWrites (writes_of_gatheredFragment builder gatheredMade))

theorem exists_assemble
    (builder : rule.builder = column.builder) (noEscape : '\\' ∉ column.name.toList)
    {retained : List Criterion} (keys : ∀ c ∈ retained, c.2.isKey = true)
    (listed : gatheredValues rule retained ≠ [] → column.HasListForm) :
    ∃ clause, assemble rule retained = .ok clause := by
  have each : ∀ c ∈ ownCriteria rule retained, ∃ fragment, fragmentOf rule c = .ok fragment := by
    intro c member
    exact exists_fragmentOf builder noEscape (keys c (List.mem_of_mem_filter member))
  rcases exists_mapM each with ⟨own, ownMade⟩
  rcases exists_gatheredFragment builder noEscape listed with ⟨gathered, gatheredMade⟩
  rw [assemble, ownMade, ok_bind, gatheredMade]
  exact ⟨_, rfl⟩

/-- What is retained can serve as a key. -/
theorem isKey_of_mem_retain
    {found retained : List Criterion} (kept : (retain rule [] found).result = .ok retained)
    {c : Criterion} (member : c ∈ retained) :
    c.2.isKey = true := by
  rcases binds_of_mem_retain kept member with impossible | ⟨_, -, binds⟩
  · cases impossible
  · exact binds.isKey

/-- Only a list of values for an operator without a list form is no clause of a column. -/
theorem gathered_of_assemble_error
    (builder : rule.builder = column.builder) (noEscape : '\\' ∉ column.name.toList)
    {retained : List Criterion} (keys : ∀ c ∈ retained, c.2.isKey = true)
    {fault : Fault} (failed : assemble rule retained = .error fault) :
    rule.gatherEq = true ∧ ¬column.HasListForm ∧ ∃ v, (.eq, v) ∈ retained := by
  by_cases listed : gatheredValues rule retained ≠ [] → column.HasListForm
  · rcases exists_assemble builder noEscape keys listed with ⟨clause, assembled⟩
    rw [assembled] at failed
    cases failed
  rw [Classical.not_imp] at listed
  rcases List.exists_mem_of_ne_nil _ listed.1 with ⟨v, member⟩
  rcases List.mem_map.mp member with ⟨c, inside, -⟩
  rcases List.mem_filter.mp inside with ⟨kept, gathers⟩
  rw [Bool.and_eq_true, beq_iff_eq] at gathers
  exact ⟨gathers.1, listed.2, c.2, by rwa [← gathers.2]⟩

theorem numbered_ofParts
    (noEscape : '\\' ∉ column.name.toList) (parts : List Column.Part) :
    (Clause.ofParts column parts).numbered =
      ⟨column.conjunctionText Sql.numberedMark parts, parts.flatMap Column.Part.values⟩ := by
  have rendered := (Column.renders_texts noEscape 0 1 parts).numberedFrom_eq
  rw [Clause.numbered, Clause.ofParts, Sql.toNumbered_eq, Column.conjunctionText, rendered,
    String.ofList_toList]
  rfl

/--
Where a column without a backslash in its name is compiled, whatever the name
holds, the clause is made of the parts of what is retained, in order, and the
numbered style gives the same parts with the numbers from one to the number of
values in the place of the question marks.  A fault of the compiler is one that
the encoder itself gives, or a value is retained for an equality that is
gathered and stands for an operator without a list form.
-/
theorem compile_column
    (builder : rule.builder = column.builder) (noEscape : '\\' ∉ column.name.toList)
    (raw : Value) :
    (∀ clause, (compile rule raw).result = .ok clause →
      ∃ found retained, criteria raw = .ok found ∧ (retain rule [] found).result = .ok retained ∧
        let parts := column.parts rule retained
        clause.text = column.conjunctionText Sql.anonymousMark parts ∧
        clause.values = parts.flatMap Column.Part.values ∧
        clause.numbered = ⟨column.conjunctionText Sql.numberedMark parts, clause.values⟩) ∧
    ∀ fault, (compile rule raw).result = .error (.clause fault) →
      ∃ found, criteria raw = .ok found ∧
        ((∃ c ∈ found, encodeWith rule.encoder c.2 = .error (.clause fault)) ∨
          ∃ retained v, (retain rule [] found).result = .ok retained ∧ (.eq, v) ∈ retained ∧
            rule.gatherEq = true ∧ column.rendered .eq ≠ .eq ∧ column.rendered .eq ≠ .ne) := by
  rw [result_compile]
  constructor
  · intro clause compiled
    rcases bind_eq_ok.mp compiled with ⟨found, read, compiled⟩
    rcases bind_eq_ok.mp compiled with ⟨retained, kept, assembled⟩
    have keys : ∀ c ∈ retained, c.2.isKey = true := fun _ => isKey_of_mem_retain kept
    rw [eq_ofParts_of_assemble builder keys assembled]
    exact ⟨found, retained, read, kept, rfl, rfl, numbered_ofParts noEscape _⟩
  · intro fault failed
    cases read : criteria raw with
    | error other =>
      rw [read] at failed
      rcases fault_of_criteria read with rfl | rfl <;> cases failed
    | ok found =>
      rw [read, ok_bind] at failed
      refine ⟨found, rfl, ?_⟩
      cases kept : (retain rule [] found).result with
      | error other =>
        rw [kept] at failed
        cases failed
        exact Or.inl (encode_of_retain_clause kept)
      | ok retained =>
        have keys : ∀ c ∈ retained, c.2.isKey = true := fun _ => isKey_of_mem_retain kept
        rw [kept, ok_bind] at failed
        rcases gathered_of_assemble_error builder noEscape keys failed with
          ⟨gathers, unlisted, v, member⟩
        exact Or.inr ⟨retained, v, rfl, member, gathers, not_or.mp unlisted⟩

end Assemble

/-- A column with quotes, a question mark and a comment mark in its name. -/
theorem compile_column_quoted :
    let column : Column := ⟨"t.say \"who?\" --", []⟩
    let rule : ClauseRule := { builder := column.builder, gatherEq := true }
    let raw : Value := .list [.text "1", .text "gt:5", .text "2"]
    let clause : Clause :=
      ⟨"t.\"say \"\"who?\"\" --\" > ? and t.\"say \"\"who?\"\" --\" IN (?, ?)",
        [.text "5", .text "1", .text "2"]⟩
    '\\' ∉ column.name.toList ∧ (compile rule raw).result = .ok clause ∧
      clause.numbered =
        ⟨"t.\"say \"\"who?\"\" --\" > $1 and t.\"say \"\"who?\"\" --\" IN ($2, $3)",
          clause.values⟩ := by
  intro column rule raw clause
  have noEscape : '\\' ∉ column.name.toList := by decide
  have compiled : (compile rule raw).result = .ok clause := by
    cbv
  have builder : rule.builder = column.builder := rfl
  rcases (compile_column builder noEscape raw).1 clause compiled with
    ⟨found, retained, read, kept, -, -, numbered⟩
  refine ⟨noEscape, compiled, ?_⟩
  cases read
  cases kept
  exact numbered.trans (congrArg (Clause.mk · clause.values) (by decide +kernel))

end LedgerQuery
