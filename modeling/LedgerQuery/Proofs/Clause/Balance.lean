import LedgerQuery.Clause.Compile
import LedgerQuery.Proofs.Outcome
import LedgerQuery.Proofs.Sql.Closed

/-!
# Placeholders and values of compiled clauses

The compiler checks every fragment by itself.  A compiled clause has one
placeholder for each of its values as long as the builder's texts are closed,
and the main statement says that nothing less will do: a text keeps the balance
of every clause in which it stands among closed texts exactly when it is closed.
-/

namespace LedgerQuery

open Sql (IsClosed countQuestions)

/-- A text that the builder gives to some fragment. -/
def FragmentBuilder.Yields (builder : FragmentBuilder) (text : String) : Prop :=
  (∃ operator value bound, builder.build operator value = .ok (.tuple [.text text, bound])) ∨
    ∃ values bound, builder.buildIn values = .ok (.tuple [.text text, bound])

/-! ## The fragments of a compiled clause -/

theorem Fragment.eq_tuple_of_ofResult
    {single : Bool} {result : Value} {fragment : Fragment}
    (checked : ofResult single result = .ok fragment) :
    ∃ bound, result = .tuple [.text fragment.text, bound] := by
  rw [ofResult.eq_def] at checked
  split at checked
  · next text bound =>
    dsimp only at checked
    split at checked
    · cases checked
    · split at checked
      · cases checked
        exact ⟨bound, rfl⟩
      · cases checked
  · rcases bind_eq_ok.mp checked with ⟨shown, -, impossible⟩
    cases impossible

theorem yields_of_fragmentOf
    {rule : ClauseRule} {criterion : Criterion} {fragment : Fragment}
    (made : fragmentOf rule criterion = .ok fragment) :
    rule.builder.Yields fragment.text := by
  rcases bind_eq_ok.mp made with ⟨result, built, checked⟩
  rcases Fragment.eq_tuple_of_ofResult checked with ⟨bound, rfl⟩
  exact Or.inl ⟨_, _, bound, built⟩

theorem yields_of_gatheredFragment
    {rule : ClauseRule} {values : List Value} {fragments : List Fragment}
    (made : gatheredFragment rule values = .ok fragments)
    {fragment : Fragment} (member : fragment ∈ fragments) :
    rule.builder.Yields fragment.text := by
  rw [gatheredFragment] at made
  split at made
  · cases made
    cases member
  · rcases bind_eq_ok.mp made with ⟨result, built, made⟩
    rcases bind_eq_ok.mp made with ⟨only, checked, made⟩
    cases made
    rcases List.mem_singleton.mp member with rfl
    rcases Fragment.eq_tuple_of_ofResult checked with ⟨bound, rfl⟩
    exact Or.inr ⟨_, bound, built⟩

/-- Compiling reads the criteria, keeps the distinct ones and assembles their fragments. -/
theorem result_compile (rule : ClauseRule) (raw : Value) :
    (compile rule raw).result =
      criteria raw >>= fun found => (retain rule [] found).result >>= assemble rule := by
  simp only [compile, Traced.result_bind, Traced.result_lift]

/-- A compiled clause is made of checked fragments with the builder's texts. -/
theorem exists_fragments_of_compile
    {rule : ClauseRule} {raw : Value} {clause : Clause}
    (compiled : (compile rule raw).result = .ok clause) :
    ∃ fragments, clause = Clause.ofFragments fragments ∧
      ∀ fragment ∈ fragments, rule.builder.Yields fragment.text := by
  rw [result_compile] at compiled
  rcases bind_eq_ok.mp compiled with ⟨found, -, compiled⟩
  rcases bind_eq_ok.mp compiled with ⟨retained, -, compiled⟩
  rcases bind_eq_ok.mp compiled with ⟨own, ownMade, compiled⟩
  rcases bind_eq_ok.mp compiled with ⟨gathered, gatheredMade, compiled⟩
  cases compiled
  refine ⟨own ++ gathered, rfl, ?_⟩
  intro fragment member
  rcases List.mem_append.mp member with member | member
  · rcases exists_of_mem_mapM ownMade member with ⟨criterion, -, made⟩
    exact yields_of_fragmentOf made
  · exact yields_of_gatheredFragment gatheredMade member

/-- Fragments of which all but the last have closed texts make a balanced clause. -/
theorem countQuestions_ofFragments
    {fragments : List Fragment}
    (closed : ∀ fragment ∈ fragments.dropLast, IsClosed fragment.text) :
    countQuestions (Clause.ofFragments fragments).text =
      (Clause.ofFragments fragments).values.length := by
  have texts : ∀ text ∈ (fragments.map Fragment.text).dropLast, IsClosed text := by
    intro text member
    rw [← List.map_dropLast] at member
    rcases List.mem_map.mp member with ⟨fragment, inside, rfl⟩
    exact closed fragment inside
  have eachBalanced : (fragments.map Fragment.text).map countQuestions =
      fragments.map fun fragment => fragment.values.length := by
    rw [List.map_map]
    exact List.map_congr_left fun fragment _ => fragment.count_eq
  rw [Clause.ofFragments, Sql.countQuestions_intercalate _ texts, eachBalanced,
    List.length_flatMap]

/-! ## Texts that are not closed -/

namespace FragmentBuilder

/-- A builder with one text for exclusions and one for all other operators, which binds as many
values as the text has placeholders. -/
def ofTexts (exclusion other : String) : FragmentBuilder :=
  .ofBuild fun operator _ =>
    let text := if operator = .ne then exclusion else other
    .ok (.tuple [.text text, .list (List.replicate (countQuestions text) .null)])

theorem eq_or_eq_of_yields_ofTexts
    {exclusion other text : String}
    (yields : (ofTexts exclusion other).Yields text) :
    text = exclusion ∨ text = other := by
  rcases yields with ⟨operator, value, bound, built⟩ | ⟨values, bound, built⟩
  · cases built
    by_cases exclusive : operator = .ne
    · exact Or.inl (if_pos exclusive)
    · exact Or.inr (if_neg exclusive)
  · cases built
    exact Or.inr rfl

end FragmentBuilder

/-- The fragment of a text with nothing bound to its placeholders. -/
def Fragment.ofText (text : String) : Fragment :=
  ⟨text, List.replicate (countQuestions text) .null, by rw [List.length_replicate]⟩

theorem Fragment.ofResult_ofText (text : String) :
    ofResult false
        (.tuple [.text text, .list (List.replicate (countQuestions text) .null)]) =
      .ok (ofText text) := by
  simp [ofResult, severalValues, boundValues, ofText]

/-- One exclusion and one bound give a clause with both texts. -/
theorem compile_ofTexts (exclusion other : String) :
    (compile { builder := .ofTexts exclusion other }
        (.list [.pair .ne (.int 0), .pair .lt (.int 0)])).result =
      .ok (Clause.ofFragments [.ofText exclusion, .ofText other]) := by
  let rule : ClauseRule := { builder := .ofTexts exclusion other }
  let both : List Criterion := [(.ne, .int 0), (.lt, .int 0)]
  have read : criteria (.list [.pair .ne (.int 0), .pair .lt (.int 0)]) = .ok both := rfl
  have retained : (retain rule [] both).result = .ok both := rfl
  have exclusionMade : fragmentOf rule (.ne, .int 0) = .ok (.ofText exclusion) :=
    Fragment.ofResult_ofText exclusion
  have otherMade : fragmentOf rule (.lt, .int 0) = .ok (.ofText other) :=
    Fragment.ofResult_ofText other
  have assembled : assemble rule both =
      .ok (Clause.ofFragments [.ofText exclusion, .ofText other]) := by
    have own : ownCriteria rule both = both := rfl
    have gathered : gatheredFragment rule (gatheredValues rule both) = .ok [] := rfl
    rw [assemble, own, gathered, List.mapM_cons, List.mapM_cons, exclusionMade, otherMade]
    rfl
  rw [result_compile]
  exact bind_eq_ok.mpr ⟨both, read, bind_eq_ok.mpr ⟨both, retained, assembled⟩⟩

/-! ## The balance -/

/-- A builder all of whose texts are closed makes balanced clauses only. -/
theorem countQuestions_of_compile
    {rule : ClauseRule} {raw : Value} {clause : Clause}
    (closed : ∀ text, rule.builder.Yields text → IsClosed text)
    (compiled : (compile rule raw).result = .ok clause) :
    countQuestions clause.text = clause.values.length := by
  rcases exists_fragments_of_compile compiled with ⟨fragments, rfl, yields⟩
  apply countQuestions_ofFragments
  intro fragment member
  exact closed fragment.text (yields fragment (List.dropLast_subset fragments member))

/-- Behind a text that is not closed one of the closers loses its placeholder. -/
theorem exists_unbalanced_of_not_isClosed
    {text : String} (unclosed : ¬IsClosed text) :
    ∃ closer, IsClosed closer ∧
      countQuestions (Clause.ofFragments [.ofText text, .ofText closer]).text <
        (Clause.ofFragments [.ofText text, .ofText closer]).values.length := by
  rcases Sql.exists_hidden_question (Bool.eq_false_iff.mpr unclosed) with ⟨closer, member, hidden⟩
  rcases Sql.isClosed_of_mem_closers member with ⟨closerClosed, closerCount⟩
  refine ⟨closer, closerClosed, ?_⟩
  have joined : (Clause.ofFragments [.ofText text, .ofText closer]).text =
      text ++ Clause.conjunction ++ closer := by
    simp [Clause.ofFragments, Fragment.ofText]
  have bound : (Clause.ofFragments [.ofText text, .ofText closer]).values.length =
      countQuestions text + 1 := by
    simp [Clause.ofFragments, Fragment.ofText, closerCount]
  rw [joined, bound, Nat.lt_succ_iff, Sql.countQuestions_eq, Sql.countQuestions_eq,
    String.toList_append, String.toList_append]
  exact hidden

/--
A text is closed exactly when it may be a builder's: every clause that is
compiled, from any query value, with a builder that gives this text and closed
ones has as many placeholders as values.  So a builder all of whose texts are
closed makes balanced clauses only, and no weaker condition on a text will do.
-/
theorem isClosed_iff_balanced (text : String) :
    IsClosed text ↔
      ∀ (rule : ClauseRule) (raw : Value) (clause : Clause),
        (∀ other, rule.builder.Yields other → other = text ∨ IsClosed other) →
        (compile rule raw).result = .ok clause →
          countQuestions clause.text = clause.values.length := by
  constructor
  · intro isClosed rule raw clause yields compiled
    apply countQuestions_of_compile _ compiled
    intro other yielded
    rcases yields other yielded with rfl | closed
    · exact isClosed
    · exact closed
  · intro balanced
    by_cases isClosed : IsClosed text
    · exact isClosed
    rcases exists_unbalanced_of_not_isClosed isClosed with ⟨closer, closerClosed, fewer⟩
    have others : ∀ other, (FragmentBuilder.ofTexts text closer).Yields other →
        other = text ∨ IsClosed other := by
      intro other yields
      rcases FragmentBuilder.eq_or_eq_of_yields_ofTexts yields with same | rfl
      · exact Or.inl same
      · exact Or.inr closerClosed
    have equal := balanced { builder := .ofTexts text closer } _ _ others
      (compile_ofTexts text closer)
    exact absurd equal (Nat.ne_of_lt fewer)

/-- A comment at the end of a fragment hides the placeholder of the next one. -/
theorem balance_broken_by_comment :
    let clause : Clause := ⟨"x != ? -- and x > ? --", [.text "1", .text "2"]⟩
    (compile
        { builder := .ofFunction
            (fun sign value => .tuple [.text ("x" ++ sign ++ "? --"), value]) none }
        (.list [.text "ne:1", .text "gt:2"])).result = .ok clause ∧
      countQuestions clause.text = 1 ∧ clause.values.length = 2 := by
  refine ⟨?_, ?_, rfl⟩
  · cbv
  · decide +kernel

end LedgerQuery
