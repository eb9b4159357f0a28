import LedgerQuery.Clause.Parameter
import LedgerQuery.Proofs.Clause.Retain
import LedgerQuery.Proofs.Given
import LedgerQuery.Proofs.Token.Distinct

/-!
# Compiling distinct tokens

Repetitions are dropped twice on the way from a query value to a clause: where
the value is read as tokens, and where the compiler retains criteria.  The first
keeps tokens as they are written and also those whose value will be dropped, the
second keeps bound values and drops what has none.  The main statement says that
they agree: the distinct tokens of a value have the clause of the value itself,
or fail with the same fault.
-/

namespace LedgerQuery

/-! ## What is retained -/

section Unrestricted

variable {rule : ClauseRule}

/-- Where all operators are accepted, the criteria that are retained are the first occurrences of
the encoded ones that are not dropped. -/
theorem result_retain_of_unrestricted
    (unrestricted : rule.allowed = none) (seen found : List Criterion) :
    (retain rule seen found).result =
      (found.mapM (Criterion.encoded rule.encoder)).map fun keys =>
        (keys.filter fun key => !key.2.isNull).foldl addNew seen := by
  induction found generalizing seen with
  | nil => rfl
  | cons c found ih =>
    have allowed : rule.allows c.1 = true := by
      rw [ClauseRule.allows, unrestricted]
    rw [retain_cons_of_allowed allowed, List.mapM_cons]
    cases Criterion.encoded rule.encoder c with
    | error fault => rfl
    | ok key =>
      rw [ok_bind, ok_bind, ih]
      cases found.mapM (Criterion.encoded rule.encoder) with
      | error fault => rfl
      | ok keys =>
        cases missing : key.2.isNull with
        | true =>
          have dropped : (key :: keys).filter (fun key => !key.2.isNull) =
              keys.filter fun key => !key.2.isNull :=
            List.filter_cons_of_neg (by rw [missing]; decide)
          exact congrArg (fun kept => Except.ok (kept.foldl addNew seen)) dropped.symm
        | false =>
          have kept : (key :: keys).filter (fun key => !key.2.isNull) =
              key :: keys.filter fun key => !key.2.isNull :=
            List.filter_cons_of_pos (by rw [missing]; rfl)
          exact congrArg (fun kept => Except.ok (kept.foldl addNew seen)) kept.symm

/-- Dropping repetitions among encoded criteria first makes no difference to what is retained. -/
theorem foldl_addNew_firstOccurrences (keys : List Criterion) :
    ((firstOccurrences Criterion.same id keys).filter fun key => !key.2.isNull).foldl addNew [] =
      (keys.filter fun key => !key.2.isNull).foldl addNew [] := by
  have respects (a b : Criterion) (repeated : a.same b = true) :
      (!a.2.isNull) = !b.2.isNull := by
    rw [Criterion.same, Bool.and_eq_true] at repeated
    rw [Value.isNull_congr repeated.2]
  have filtered : firstOccurrences Criterion.same id (keys.filter fun key => !key.2.isNull) =
      (firstOccurrences Criterion.same id keys).filter fun key => !key.2.isNull :=
    firstOccurrences_filter respects keys
  rw [foldl_addNew, foldl_addNew, newOccurrences_nothing_seen, newOccurrences_nothing_seen,
    ← filtered, firstOccurrences_idem]

theorem result_compile_of_unrestricted
    (unrestricted : rule.allowed = none)
    {raw : Value} {found : List Criterion} (read : criteria raw = .ok found) :
    (compile rule raw).result =
      found.mapM (Criterion.encoded rule.encoder) >>= fun keys =>
        assemble rule ((keys.filter fun key => !key.2.isNull).foldl addNew []) := by
  rw [result_compile, read, ok_bind, result_retain_of_unrestricted unrestricted]
  cases found.mapM (Criterion.encoded rule.encoder) <;> rfl

end Unrestricted

/-! ## Tokens as criteria -/

theorem criteria_toValue (tokens : List Token) :
    criteria (.list (tokens.map Token.toValue)) =
      .ok (tokens.map fun token => (token.operator, .text token.value)) := by
  have readAll : ∀ v ∈ tokens.map Token.toValue, Criterion.read v = .ok (Criterion.ofElement v) :=
    List.forall_mem_map.mpr fun _ _ => rfl
  show (tokens.map Token.toValue).mapM Criterion.read = _
  rw [mapM_of_forall_ok readAll, List.map_map]
  rfl

theorem encoded_of_readToken
    {encoder : Option Encoder} {s : String} {read : Token × Criterion}
    (done : readToken encoder s = .ok read) :
    Criterion.encoded encoder (read.1.operator, .text read.1.value) = .ok read.2 := by
  rcases map_eq_ok.mp done with ⟨key, encoded, rfl⟩
  exact encoded

/-- The encoded criteria of texts are the keys under which their tokens are read. -/
theorem mapM_encoded_texts (encoder : Option Encoder) (texts : List String) :
    (texts.map fun s => ((Token.parse s).operator, .text (Token.parse s).value)).mapM
        (Criterion.encoded encoder) =
      (texts.mapM (readToken encoder)).map (List.map Prod.snd) := by
  rw [List.mapM_map, ← mapM_map]
  congr 1
  funext s
  rw [readToken, Function.comp_apply]
  cases Criterion.encoded encoder ((Token.parse s).operator, .text (Token.parse s).value) <;> rfl

/-- The encoded criteria of the distinct tokens are the distinct keys. -/
theorem mapM_encoded_distinct
    {encoder : Option Encoder} {texts : List String} {read : List (Token × Criterion)}
    (done : texts.mapM (readToken encoder) = .ok read) :
    ((firstOccurrences Criterion.same Prod.snd read).map fun r =>
        (r.1.operator, .text r.1.value)).mapM (Criterion.encoded encoder) =
      .ok (firstOccurrences Criterion.same id (read.map Prod.snd)) := by
  rw [firstOccurrences_map, mapM_eq_ok_iff, List.forall₂_map_left_iff, List.forall₂_map_right_iff]
  apply List.forall₂_same.mpr
  intro r member
  rcases exists_of_mem_mapM done (mem_of_mem_firstOccurrences member) with ⟨s, -, readFrom⟩
  exact encoded_of_readToken readFrom

/--
The distinct tokens of a query value compile to the clause of the value itself,
and where one of the two fails, so does the other with the same fault.  This holds
for every encoder and every fragment builder, with equalities gathered or apart.
-/
theorem compile_parseTokens
    {rule : ClauseRule} (unrestricted : rule.allowed = none)
    {raw : Value} (given : raw.isGiven = true) :
    (parseTokens raw rule.encoder >>= fun tokens =>
        (compile rule (.list (tokens.map Token.toValue))).result) =
      (compile rule raw).result := by
  rw [parseTokens_eq]
  cases hasTexts : valueTexts raw with
  | error fault =>
    -- A number of too many digits is met in both places.
    rw [result_compile, criteria_eq_of_isGiven given, hasTexts]
    rfl
  | ok texts =>
  rw [ok_bind, result_compile_of_unrestricted unrestricted (criteria_of_isGiven given hasTexts),
    mapM_encoded_texts]
  cases done : texts.mapM (readToken rule.encoder) with
  | error fault => rfl
  | ok read =>
    have written : criteria (.list (((firstOccurrences Criterion.same Prod.snd read).map
        Prod.fst).map Token.toValue)) =
          .ok ((firstOccurrences Criterion.same Prod.snd read).map fun r =>
            (r.1.operator, .text r.1.value)) := by
      rw [criteria_toValue, List.map_map]
      rfl
    have distinct := result_compile_of_unrestricted unrestricted written
    rw [mapM_encoded_distinct done, ok_bind, foldl_addNew_firstOccurrences] at distinct
    exact distinct

/-- A timestamp in two spellings, and two values that are none: of these one is left among the
tokens, and none in the clause. -/
theorem compile_parseTokens_spellings :
    let rule : ClauseRule :=
      { builder := (Column.mk "ts" []).builder, encoder := some timestampEncoder }
    let raw : Value := .list [.text "gt:1", .text "x", .text "gt:1.0", .text "y", .text "2"]
    let clause : Clause := ⟨"ts > ? and ts = ?", [.int 1000000000, .int 2000000000]⟩
    rule.allowed = none ∧ raw.isGiven = true ∧
      parseTokens raw rule.encoder = .ok [⟨.gt, "1"⟩, ⟨.eq, "x"⟩, ⟨.eq, "2"⟩] ∧
      (compile rule (.list [.pair .gt (.text "1"), .pair .eq (.text "x"),
        .pair .eq (.text "2")])).result = .ok clause ∧
      (compile rule raw).result = .ok clause := by
  intro rule raw clause
  have parsed : parseTokens raw rule.encoder = .ok [⟨.gt, "1"⟩, ⟨.eq, "x"⟩, ⟨.eq, "2"⟩] := by
    cbv
  have compiled : (compile rule raw).result = .ok clause := by
    cbv
  have agree : (parseTokens raw rule.encoder >>= fun tokens =>
      (compile rule (.list (tokens.map Token.toValue))).result) = (compile rule raw).result :=
    compile_parseTokens rfl rfl
  rw [parsed, ok_bind, compiled] at agree
  exact ⟨rfl, rfl, parsed, agree, compiled⟩

end LedgerQuery
