import LedgerQuery.Proofs.Clause.Column
import LedgerQuery.Proofs.Clause.Distinct
import LedgerQuery.Proofs.Clause.Pairs

/-!
# What the clause of a column selects

The clause of a column is read from its text and values alone as a list of tests:
the column is compared with a number, or it is one of several numbers.  A number
is selected when it passes every test.

The main statement says that a clause selects what the tokens ask for.  With
equalities apart every condition holds; with equalities gathered every other one
holds and, if there are equalities, one of these.  Nothing is lost, doubled or put
with another operator on the way, as the values are those of the distinct
conditions in their order.
-/

namespace LedgerQuery

open Timestamp (Condition)

/-! ## Tests -/

namespace Clause

/-- A test of a number in the column. -/
inductive Test where
  /-- The number is in a relation to another. -/
  | compares (operator : Operator) (n : Int)
  /-- The number is one of several. -/
  | isOneOf (ns : List Int)

/-- Whether a number passes a test. -/
def Test.Holds : Test → Int → Prop
  | compares operator n, x => operator.Holds x n
  | isOneOf ns, x => x ∈ ns

end Clause

namespace Sql

/-- Read the marks of a list up to the bracket at its end, with a number for each. -/
def readListed : List Char → List Value → Option (List Int)
  | ['?', ')'], [.int n] => some [n]
  | '?' :: ',' :: ' ' :: marks, .int n :: values => (readListed marks values).map (n :: ·)
  | _, _ => none

/-- Read the tests of a clause, each behind an `and`, with their values. -/
def readTests (name : List Char) : List Char → List Value → Option (List Clause.Test)
  | [], [] => some []
  | cs, .int n :: values => do
    let test ← cs.dropPrefix? Clause.conjunction.toList
    match readComparison name test with
    | some (operator, rest) =>
      let others ← readTests name rest values
      return .compares operator n :: others
    | none =>
      let marks ← test.dropPrefix? (name ++ " IN (".toList)
      let listed ← readListed marks (.int n :: values)
      return [.isOneOf listed]
  | _, _ => none

end Sql

namespace Clause

/-- The tests of a column that a clause is made of. -/
def tests? (column : String) (clause : Clause) : Option (List Test) :=
  if clause.text.isEmpty && clause.values.isEmpty then some []
  else
    Sql.readTests (Sql.columnName column) (conjunction.toList ++ clause.text.toList) clause.values

/-- The clause can be read, and a number in the column passes its tests. -/
def Selects (column : String) (clause : Clause) (x : Int) : Prop :=
  ∃ tests, clause.tests? column = some tests ∧ ∀ test ∈ tests, test.Holds x

end Clause

theorem Clause.selects_iff_of_tests?
    {column : String} {clause : Clause} {tests : List Test}
    (read : clause.tests? column = some tests) {x : Int} :
    clause.Selects column x ↔ ∀ test ∈ tests, test.Holds x := by
  constructor
  · rintro ⟨others, readToo, holds⟩
    rw [read] at readToo
    cases readToo
    exact holds
  · intro holds
    exact ⟨tests, read, holds⟩

/-! ## Reading undoes writing -/

namespace Sql

theorem readListed_marks (n : Int) (ns : List Int) :
    readListed ((", ".intercalate (List.replicate (ns.length + 1) "?")).toList ++ [')'])
        (.int n :: ns.map .int) =
      some (n :: ns) := by
  induction ns generalizing n with
  | nil => rfl
  | cons m ns ih =>
    rw [List.length_cons, List.replicate_succ, List.replicate_succ, String.intercalate_cons_cons,
      String.toList_append, String.toList_append, List.append_assoc, List.append_assoc,
      ← List.replicate_succ, List.map_cons]
    exact congrArg (Option.map (n :: ·)) (ih m)

theorem readTests_comparison
    (column : Column) (operator : Operator) (n : Int) (rest : List Char) (values : List Value) :
    readTests (columnName column.name)
        (Clause.conjunction.toList ++ ((column.comparison operator).toList ++ rest))
        (.int n :: values) =
      (readTests (columnName column.name) rest values).map (.compares operator n :: ·) := by
  rw [readTests, List.dropPrefix?_append_of_beq _ BEq.rfl, Option.bind_eq_bind, Option.bind_some,
    readComparison_comparison]
  dsimp only
  cases readTests (columnName column.name) rest values <;> rfl

theorem readTests_membership (column : Column) (n : Int) (ns : List Int) :
    readTests (columnName column.name)
        (Clause.conjunction.toList ++ (column.membership (ns.length + 1)).toList)
        (.int n :: ns.map .int) =
      some [.isOneOf (n :: ns)] := by
  have written : (column.membership (ns.length + 1)).toList =
      (columnName column.name ++ " IN (".toList) ++
        ((", ".intercalate (List.replicate (ns.length + 1) "?")).toList ++ [')']) := by
    rw [Column.membership]
    simp
  rw [readTests, List.dropPrefix?_append_of_beq _ BEq.rfl, Option.bind_eq_bind, Option.bind_some,
    readComparison_membership]
  dsimp only
  rw [written, List.dropPrefix?_append_of_beq _ BEq.rfl, Option.bind_eq_bind, Option.bind_some,
    readListed_marks]
  rfl

/-- Comparisons, and a membership test at the end if it has numbers, are read as tests. -/
theorem readTests_parts (column : Column) (cs : List Condition) (ns : List Int) :
    let parts : List Column.Part := cs.map (fun c => .comparison c.1 (.int c.2)) ++
      if ns.isEmpty then [] else [.membership false (ns.map .int)]
    readTests (columnName column.name)
        (parts.flatMap fun part =>
          Clause.conjunction.toList ++ (column.partText anonymousMark 1 part).toList)
        (parts.flatMap Column.Part.values) =
      some (cs.map (fun c => .compares c.1 c.2) ++ if ns.isEmpty then [] else [.isOneOf ns]) := by
  dsimp only
  induction cs with
  | nil =>
    cases ns with
    | nil => rfl
    | cons n ns =>
      have written : column.partText anonymousMark 1 (.membership false ((n :: ns).map .int)) =
          column.membership (ns.length + 1) := by
        rw [Column.partText_membership]
        simp
      have read := readTests_membership column n ns
      rw [← written] at read
      simpa [Column.Part.values] using read
  | cons c cs ih =>
    rw [List.map_cons, List.cons_append, List.flatMap_cons, List.flatMap_cons, List.append_assoc,
      Column.partText_comparison, Column.Part.values, List.singleton_append,
      readTests_comparison, ih]
    rfl

end Sql

/-- The clause of comparisons and perhaps a membership test is read as these tests. -/
theorem Clause.tests?_ofParts (column : Column) (cs : List Condition) (ns : List Int) :
    (ofParts column (cs.map (fun c => .comparison c.1 (.int c.2)) ++
        if ns.isEmpty then [] else [.membership false (ns.map .int)])).tests? column.name =
      some (cs.map (fun c => .compares c.1 c.2) ++ if ns.isEmpty then [] else [.isOneOf ns]) := by
  have read := Sql.readTests_parts column cs ns
  dsimp only at read
  generalize given : (cs.map (fun c => .comparison c.1 (.int c.2)) ++
      if ns.isEmpty then [] else [.membership false (ns.map .int)] : List Column.Part) = parts
    at read ⊢
  cases parts with
  | nil => exact read
  | cons part parts =>
    have restricts : ((ofParts column (part :: parts)).text.isEmpty &&
        (ofParts column (part :: parts)).values.isEmpty) = false := by
      rw [Bool.and_eq_false_iff]
      right
      rw [List.isEmpty_eq_false_iff]
      intro none
      have noValues : (part :: parts).flatMap Column.Part.values = [] := none
      rw [noValues, List.flatMap_cons, List.append_assoc] at read
      cases read
    rw [tests?, restricts, toList_ofParts]
    exact read

/-! ## Conditions asked for -/

/-- The condition that a token asks for, unless its value is dropped. -/
def conditionOf? (encode : String → Option Int) (s : String) : Option Condition :=
  (encode (Token.parse s).value).map fun n => ((Token.parse s).operator, n)

/-- What conditions ask of a number, with equalities apart or gathered. -/
def Meets : (gatherEq : Bool) → List Condition → Int → Prop
  | false, asked, x => ∀ c ∈ asked, c.1.Holds x c.2
  | true, asked, x =>
    (∀ c ∈ asked, c.1 ≠ .eq → c.1.Holds x c.2) ∧
      ((∃ n, (.eq, n) ∈ asked) → ∃ n, (.eq, n) ∈ asked ∧ x = n)

/-- Whether a condition is gathered with others in one test. -/
def gathers (gatherEq : Bool) (c : Condition) : Bool :=
  gatherEq && c.1 == .eq

/-- Conditions with the gathered ones at the end. -/
def arranged (gatherEq : Bool) (cs : List Condition) : List Condition :=
  cs.filter (fun c => !gathers gatherEq c) ++ cs.filter (gathers gatherEq)

/-- The tests of conditions: one for each that stands apart, one for all that are gathered. -/
def testsOf (gatherEq : Bool) (cs : List Condition) : List Clause.Test :=
  (cs.filter fun c => !gathers gatherEq c).map (fun c => .compares c.1 c.2) ++
    if ((cs.filter (gathers gatherEq)).map Prod.snd).isEmpty then []
    else [.isOneOf ((cs.filter (gathers gatherEq)).map Prod.snd)]

theorem mem_arranged {gatherEq : Bool} {cs : List Condition} {c : Condition} :
    c ∈ arranged gatherEq cs ↔ c ∈ cs := by
  rw [arranged, List.mem_append, List.mem_filter, List.mem_filter, ← and_or_left]
  cases gathers gatherEq c <;> simp

theorem meets_congr
    {gatherEq : Bool} {cs ds : List Condition} (same : ∀ c, c ∈ cs ↔ c ∈ ds) {x : Int} :
    Meets gatherEq cs x ↔ Meets gatherEq ds x := by
  cases gatherEq <;> simp only [Meets, same]

theorem mem_gathered {cs : List Condition} {n : Int} :
    n ∈ (cs.filter (gathers true)).map Prod.snd ↔ (.eq, n) ∈ cs := by
  simp [gathers]

/-- A number passes the tests of conditions when it meets the conditions. -/
theorem holds_testsOf_iff {gatherEq : Bool} {cs : List Condition} {x : Int} :
    (∀ test ∈ testsOf gatherEq cs, test.Holds x) ↔ Meets gatherEq cs x := by
  rw [testsOf, List.forall_mem_append, List.forall_mem_map]
  cases gatherEq with
  | false =>
    have nothing : cs.filter (gathers false) = [] := List.filter_false cs
    have everything : cs.filter (fun c => !gathers false c) = cs := List.filter_true cs
    rw [nothing, everything]
    exact and_iff_left (List.forall_mem_nil _)
  | true =>
    apply and_congr
    · constructor
      · intro others c member apart
        exact others c (List.mem_filter.mpr ⟨member, by simpa [gathers] using apart⟩)
      · intro others c member
        rw [List.mem_filter] at member
        exact others c member.1 (by simpa [gathers] using member.2)
    · simp only [← mem_gathered]
      generalize (cs.filter (gathers true)).map Prod.snd = ns
      cases ns with
      | nil => simp
      | cons n ns =>
        rw [List.isEmpty_cons, if_neg Bool.false_ne_true, List.forall_mem_singleton]
        constructor
        · intro inside _
          exact ⟨x, inside, rfl⟩
        · intro one
          rcases one ⟨n, List.mem_cons_self⟩ with ⟨m, inside, rfl⟩
          exact inside

/-- Where the equalities name one number at most, it does not matter whether they are gathered. -/
theorem meets_apart_iff_gathered
    {asked : List Condition} (single : ∀ m n, (.eq, m) ∈ asked → (.eq, n) ∈ asked → m = n)
    {x : Int} :
    Meets false asked x ↔ Meets true asked x := by
  constructor
  · intro all
    refine ⟨fun c member _ => all c member, ?_⟩
    rintro ⟨n, member⟩
    exact ⟨n, member, all _ member⟩
  · rintro ⟨others, one⟩ ⟨operator, n⟩ member
    by_cases equality : operator = .eq
    · rw [equality] at member ⊢
      rcases one ⟨n, member⟩ with ⟨m, also, same⟩
      exact same.trans (single m n also member)
    · exact others _ member equality

/-! ## Compiled clauses -/

section Compiled

variable {encoder : Encoder} {encode : String → Option Int}
  (encodes : ∀ s, encoder (.text s) = .ok ((encode s).elim .null .int))

include encodes

/-- Without what is dropped, the encoded criteria of tokens are the conditions they ask for. -/
theorem exists_encoded_conditions (texts : List String) :
    ∃ keys,
      (texts.map fun s => ((Token.parse s).operator, .text (Token.parse s).value)).mapM
          (Criterion.encoded (some encoder)) = .ok keys ∧
      (keys.filter fun key => !key.2.isNull) =
        (texts.filterMap (conditionOf? encode)).map Criterion.ofCondition := by
  refine ⟨texts.map fun s =>
    ((Token.parse s).operator, (encode (Token.parse s).value).elim .null .int), ?_, ?_⟩
  · rw [mapM_eq_ok_iff, List.forall₂_map_left_iff, List.forall₂_map_right_iff, List.forall₂_same]
    intro s _
    have isKey : ((encode (Token.parse s).value).elim .null Value.int).isKey = true := by
      cases encode (Token.parse s).value <;> rfl
    rw [Criterion.encoded, encodeWith, encodes, ok_bind]
    exact if_pos isKey
  · induction texts with
    | nil => rfl
    | cons s texts ih =>
      rw [List.map_cons, List.filterMap_cons, conditionOf?]
      cases encoded : encode (Token.parse s).value with
      | none => exact ih
      | some n => exact congrArg (_ :: ·) ih

/-- The clause is assembled from the distinct conditions, in their order. -/
theorem result_compile_conditions
    {rule : ClauseRule} (encoded : rule.encoder = some encoder) (unrestricted : rule.allowed = none)
    {raw : Value} (given : raw.isGiven = true)
    {texts : List String} (read : valueTexts raw = .ok texts) :
    (compile rule raw).result =
      assemble rule ((firstOccurrences (· == ·) id (texts.filterMap (conditionOf? encode))).map
        Criterion.ofCondition) := by
  rcases exists_encoded_conditions encodes texts with ⟨keys, done, kept⟩
  have faithful (a b : Condition) :
      (Criterion.ofCondition a).same (Criterion.ofCondition b) = (id a == id b) := by
    rw [Bool.eq_iff_iff, Criterion.same_ofCondition, beq_iff_eq]
    rfl
  rw [result_compile_of_unrestricted unrestricted (criteria_of_isGiven given read), encoded, done,
    ok_bind, kept, foldl_addNew, newOccurrences_nothing_seen, firstOccurrences_map,
    ← firstOccurrences_congr faithful]
  rfl

end Compiled

section Parts

variable {rule : ClauseRule} {column : Column}

/-- The parts of conditions are comparisons of those that stand apart, and a membership test of the
gathered ones. -/
theorem parts_conditions (plain : column.overrides = []) (cs : List Condition) :
    column.parts rule (cs.map Criterion.ofCondition) =
      (cs.filter fun c => !gathers rule.gatherEq c).map (fun c => .comparison c.1 (.int c.2)) ++
        if ((cs.filter (gathers rule.gatherEq)).map Prod.snd).isEmpty then []
        else [.membership false (((cs.filter (gathers rule.gatherEq)).map Prod.snd).map .int)] := by
  have rendered (operator : Operator) : column.rendered operator = operator := by
    rw [Column.rendered, plain]
    rfl
  have own : ownCriteria rule (cs.map Criterion.ofCondition) =
      (cs.filter fun c => !gathers rule.gatherEq c).map Criterion.ofCondition := by
    rw [ownCriteria, List.filter_map]
    rfl
  have gathered : gatheredValues rule (cs.map Criterion.ofCondition) =
      ((cs.filter (gathers rule.gatherEq)).map Prod.snd).map .int := by
    rw [gatheredValues, List.filter_map, List.map_map, List.map_map]
    rfl
  rw [Column.parts, own, gathered, List.isEmpty_map, rendered, List.map_map]
  simp only [rendered, Function.comp_def]
  rfl

/-- The values of the parts are those of the conditions, with the gathered ones at the end. -/
theorem values_parts_conditions (plain : column.overrides = []) (cs : List Condition) :
    (column.parts rule (cs.map Criterion.ofCondition)).flatMap Column.Part.values =
      (arranged rule.gatherEq cs).map fun c => .int c.2 := by
  have own (ds : List Condition) : (ds.map fun c => Column.Part.comparison c.1 (.int c.2)).flatMap
      Column.Part.values = ds.map fun c => .int c.2 := by
    rw [List.flatMap_map]
    exact (List.map_eq_flatMap ..).symm
  have gathered (ns : List Int) :
      (if ns.isEmpty then [] else [Column.Part.membership false (ns.map .int)]).flatMap
        Column.Part.values = ns.map .int := by
    cases ns with
    | nil => rfl
    | cons n ns => exact List.flatMap_singleton ..
  rw [parts_conditions plain, List.flatMap_append, own, gathered, arranged, List.map_append,
    List.map_map]
  rfl

/-- A clause of conditions restricts nothing when there are none. -/
theorem ofParts_conditions_eq_empty_iff
    (plain : column.overrides = []) {cs : List Condition} :
    Clause.ofParts column (column.parts rule (cs.map Criterion.ofCondition)) = .empty ↔
      cs = [] := by
  constructor
  · intro unrestricted
    have noValues : (arranged rule.gatherEq cs).map (fun c => Value.int c.2) = [] := by
      rw [← values_parts_conditions plain]
      exact congrArg Clause.values unrestricted
    rw [List.map_eq_nil_iff, List.eq_nil_iff_forall_not_mem] at noValues
    simpa only [mem_arranged, ← List.eq_nil_iff_forall_not_mem] using noValues
  · rintro rfl
    rw [parts_conditions plain]
    rfl

end Parts

/-- The rule of a column whose values are encoded, with equalities gathered or apart. -/
def columnRule (column : String) (encoder : Encoder) (gatherEq : Bool) : ClauseRule :=
  { builder := (Column.mk column []).builder, encoder := some encoder, gatherEq }

section Selection

variable {column : String} {gatherEq : Bool} {encoder : Encoder} {encode : String → Option Int}
  (encodes : ∀ s, encoder (.text s) = .ok ((encode s).elim .null .int))
  {raw : Value} (given : raw.isGiven = true)
  {texts : List String} (read : valueTexts raw = .ok texts)

include encodes given read

/-- A clause of a column is that of the parts of the distinct conditions. -/
theorem eq_ofParts_conditions
    {clause : Clause}
    (compiled : (compile (columnRule column encoder gatherEq) raw).result = .ok clause) :
    clause = .ofParts ⟨column, []⟩ ((Column.mk column []).parts (columnRule column encoder gatherEq)
      ((firstOccurrences (· == ·) id (texts.filterMap (conditionOf? encode))).map
        Criterion.ofCondition)) := by
  rw [result_compile_conditions encodes rfl rfl given read] at compiled
  apply eq_ofParts_of_assemble rfl _ compiled
  rw [List.forall_mem_map]
  intro c _
  rfl

theorem exists_compile_conditions (noEscape : '\\' ∉ column.toList) :
    ∃ clause, (compile (columnRule column encoder gatherEq) raw).result = .ok clause := by
  have builder : (columnRule column encoder gatherEq).builder = (Column.mk column []).builder := rfl
  rw [result_compile_conditions encodes rfl rfl given read]
  apply exists_assemble builder noEscape
  · rw [List.forall_mem_map]
    intro c _
    rfl
  · intro _
    exact Or.inl rfl

end Selection

/--
A clause of a column without overrides, whose values are encoded as numbers or
dropped, selects the numbers that meet what its tokens ask for.  It has one value
for each distinct condition, in order of first occurrence with gathered equalities
at the end, and it restricts nothing exactly when no token is left.  There is one
for every column whose name has no backslash.  Where the equalities name one
number at most, the clauses with equalities apart and gathered select the same.
-/
theorem selects_compile_iff
    {encoder : Encoder} {encode : String → Option Int}
    (encodes : ∀ s, encoder (.text s) = .ok ((encode s).elim .null .int))
    {raw : Value} (given : raw.isGiven = true)
    {texts : List String} (read : valueTexts raw = .ok texts) (column : String) :
    let asked := texts.filterMap (conditionOf? encode)
    let compiled (gatherEq : Bool) := (compile (columnRule column encoder gatherEq) raw).result
    (∀ gatherEq, '\\' ∉ column.toList → ∃ clause, compiled gatherEq = .ok clause) ∧
      (∀ gatherEq clause, compiled gatherEq = .ok clause →
        (clause.tests? column).isSome = true ∧
        (∀ x, clause.Selects column x ↔ Meets gatherEq asked x) ∧
        clause.values =
          (arranged gatherEq (firstOccurrences (· == ·) id asked)).map (fun c => .int c.2) ∧
        (clause = .empty ↔ asked = [])) ∧
      ((∀ m n, (.eq, m) ∈ asked → (.eq, n) ∈ asked → m = n) →
        ∀ apart gathered, compiled false = .ok apart → compiled true = .ok gathered →
          ∀ x, apart.Selects column x ↔ gathered.Selects column x) := by
  intro asked compiled
  have members (c : Condition) : c ∈ firstOccurrences (· == ·) id asked ↔ c ∈ asked :=
    mem_firstOccurrences fun a b => beq_iff_eq
  have tests {gatherEq : Bool} {clause : Clause} (done : compiled gatherEq = .ok clause) :
      clause.tests? column = some (testsOf gatherEq (firstOccurrences (· == ·) id asked)) := by
    rw [eq_ofParts_conditions encodes given read done, parts_conditions rfl]
    exact Clause.tests?_ofParts ⟨column, []⟩ _ _
  have selects {gatherEq : Bool} {clause : Clause} (done : compiled gatherEq = .ok clause)
      (x : Int) : clause.Selects column x ↔ Meets gatherEq asked x := by
    rw [Clause.selects_iff_of_tests? (tests done), holds_testsOf_iff, meets_congr members]
  have values {gatherEq : Bool} {clause : Clause} (done : compiled gatherEq = .ok clause) :
      clause.values =
        (arranged gatherEq (firstOccurrences (· == ·) id asked)).map fun c => .int c.2 := by
    rw [eq_ofParts_conditions encodes given read done]
    exact values_parts_conditions rfl _
  refine ⟨fun _ => exists_compile_conditions encodes given read, ?_, ?_⟩
  · intro gatherEq clause done
    refine ⟨?_, selects done, values done, ?_⟩
    · rw [tests done]
      rfl
    · rw [eq_ofParts_conditions encodes given read done, ofParts_conditions_eq_empty_iff rfl,
        List.eq_nil_iff_forall_not_mem, List.eq_nil_iff_forall_not_mem]
      exact forall_congr' fun c => not_congr (members c)
  · intro single apart gathered doneApart doneGathered x
    rw [selects doneApart, selects doneGathered, meets_apart_iff_gathered single]

/-- Two seconds and a bound below them, some of them twice, and a value that is dropped. -/
theorem selects_compile_iff_seconds :
    let encode (s : String) : Option Int := (Field.timestampOfText? s).map Int.ofNat
    let texts := ["2", "gt:1", "3", "x", "gt:1.0", "2.0"]
    let raw : Value := .list (texts.map .text)
    let clause : Clause :=
      ⟨"ts > ? and ts IN (?, ?)", [.int 1000000000, .int 2000000000, .int 3000000000]⟩
    (∀ s, timestampEncoder (.text s) = .ok ((encode s).elim .null .int)) ∧
      raw.isGiven = true ∧ valueTexts raw = .ok texts ∧
      (compile (columnRule "ts" timestampEncoder true) raw).result = .ok clause ∧
      ∀ x, clause.Selects "ts" x ↔ x = 2000000000 ∨ x = 3000000000 := by
  intro encode texts raw clause
  have encodes (s : String) :
      timestampEncoder (.text s) = .ok ((encode s).elim .null .int) := by
    show Except.ok (Field.parseTimestamp (.text s)) = _
    rw [Field.parseTimestamp, Value.asText?, Option.bind_some]
    show _ = Except.ok (((Field.timestampOfText? s).map Int.ofNat).elim _ _)
    cases Field.timestampOfText? s <;> rfl
  have compiled : (compile (columnRule "ts" timestampEncoder true) raw).result = .ok clause := by
    cbv
  have asked : texts.filterMap (conditionOf? encode) =
      [(.eq, 2000000000), (.gt, 1000000000), (.eq, 3000000000), (.gt, 1000000000),
        (.eq, 2000000000)] := by
    decide +kernel
  have given : raw.isGiven = true := rfl
  have read : valueTexts raw = .ok texts := rfl
  rcases (selects_compile_iff encodes given read "ts").2.1 true clause compiled with
    ⟨-, selects, -⟩
  refine ⟨encodes, given, read, compiled, ?_⟩
  intro x
  rw [selects, asked]
  simp [Meets, Operator.Holds]
  omega

end LedgerQuery
