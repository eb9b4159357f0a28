import LedgerQuery.Proofs.Query
import LedgerQuery.Request.Validate

/-!
# Accepted requests

Every parameter of a request is judged by itself: it must be known, it must not
be given too often, and its validator must accept every token.  A request passes
exactly when each of its parameters does, so whatever changes some parameters
leaves the verdict on the others alone.
-/

namespace LedgerQuery.Request

section Accepted

variable {config : Config} {accepted : List String} {validators : List (String × Validator)}

/-- A parameter may be given with some tokens. -/
structure IsAccepted
    (config : Config) (accepted : List String) (validators : List (String × Validator))
    (key : String) (values : List String) : Prop where
  known : key ∈ accepted
  few : (values.length : Int) ≤ config.maxRepeated
  valid : ∀ validator, validatorFor? validators key = some validator →
    ∀ s ∈ values, acceptsToken validator s = true

theorem valuesProblem?_eq_ok_none_iff {key : String} {values : List String} :
    valuesProblem? config validators key values = .ok none ↔
      (values.length : Int) ≤ config.maxRepeated ∧
        ∀ validator, validatorFor? validators key = some validator →
          ∀ s ∈ values, acceptsToken validator s = true := by
  rw [valuesProblem?, isAllowedCount]
  by_cases few : (values.length : Int) ≤ config.maxRepeated
  · rw [decide_eq_true few, Bool.not_true, if_neg Bool.false_ne_true, and_iff_right few]
    cases validatorFor? validators key with
    | none =>
      apply iff_of_true rfl
      intro validator impossible
      cases impossible
    | some validator =>
      simp only [Option.some.injEq, forall_eq', ← List.all_eq_true]
      split
      · next valid => exact iff_of_true rfl valid
      · next invalid => exact iff_of_false nofun invalid
  · rw [decide_eq_false few, Bool.not_false, if_pos rfl, map_eq_ok]
    apply iff_of_false
    · rintro ⟨problem, -, impossible⟩
      cases impossible
    · rintro ⟨isFew, -⟩
      exact few isFew

theorem problem?_eq_ok_none_iff {entry : String × Value} :
    problem? config accepted validators entry = .ok none ↔
      ∃ values, valueTexts entry.2 = .ok values ∧
        IsAccepted config accepted validators entry.1 values := by
  rw [problem?]
  split
  · next known =>
    rw [List.contains_iff_mem] at known
    rw [bind_eq_ok]
    constructor
    · rintro ⟨values, read, judged⟩
      have unproblematic := valuesProblem?_eq_ok_none_iff.mp judged
      exact ⟨values, read, known, unproblematic.1, unproblematic.2⟩
    · rintro ⟨values, read, isAccepted⟩
      exact ⟨values, read, valuesProblem?_eq_ok_none_iff.mpr ⟨isAccepted.few, isAccepted.valid⟩⟩
  · next unknown =>
    apply iff_of_false
    · intro impossible
      cases impossible
    · rintro ⟨values, -, isAccepted⟩
      exact unknown (List.contains_iff_mem.mpr isAccepted.known)

theorem result_validate_eq_ok_iff_problems {query : Query} :
    (validate config accepted validators query).result = .ok () ↔
      problems config accepted validators query = .ok [] := by
  rw [validate, Traced.result_bind, Traced.result_lift]
  cases problems config accepted validators query with
  | error fault =>
    apply iff_of_false <;>
    · intro impossible
      cases impossible
  | ok found =>
    rw [ok_bind]
    cases found with
    | nil => exact iff_of_true rfl rfl
    | cons problem others =>
      apply iff_of_false <;>
      · intro impossible
        cases impossible

theorem problems_cons_eq_ok_nil_iff {entry : String × Value} {query : Query} :
    problems config accepted validators (entry :: query) = .ok [] ↔
      problem? config accepted validators entry = .ok none ∧
        problems config accepted validators query = .ok [] := by
  rw [problems, map_eq_ok, problems, map_eq_ok]
  constructor
  · rintro ⟨found, judged, nothing⟩
    rcases mapM_cons_eq_ok.mp judged with ⟨first, others, judgedFirst, judgedOthers, rfl⟩
    cases first with
    | some problem => cases nothing
    | none => exact ⟨judgedFirst, others, judgedOthers, nothing⟩
  · rintro ⟨judgedFirst, others, judgedOthers, nothing⟩
    refine ⟨none :: others, ?_, nothing⟩
    exact mapM_cons_eq_ok.mpr ⟨none, others, judgedFirst, judgedOthers, rfl⟩

theorem problems_eq_ok_nil_iff {query : Query} :
    problems config accepted validators query = .ok [] ↔
      ∀ entry ∈ query, problem? config accepted validators entry = .ok none := by
  induction query with
  | nil =>
    apply iff_of_true rfl
    intro entry impossible
    cases impossible
  | cons entry query ih => rw [problems_cons_eq_ok_nil_iff, ih, List.forall_mem_cons]

/-- A request passes when all of its parameters are accepted. -/
theorem result_validate_eq_ok_iff {query : Query} :
    (validate config accepted validators query).result = .ok () ↔
      ∃ tokens, query.texts = .ok tokens ∧
        ∀ entry ∈ tokens, IsAccepted config accepted validators entry.1 entry.2 := by
  rw [result_validate_eq_ok_iff_problems, problems_eq_ok_nil_iff, Query.forall_texts_iff]
  simp only [problem?_eq_ok_none_iff]

/-- In a request that passes the engine's own validators, a parameter has texts and its validator
accepts each of them. -/
theorem exists_texts_of_validate
    {query : Query} (valid : (validate config accepted [] query).result = .ok ())
    (parameter : Parameter) :
    ∃ tokens, valueTexts (query.get parameter.word) = .ok tokens ∧
      ∀ s ∈ tokens, acceptsToken (validatorOf parameter) s = true := by
  rw [result_validate_eq_ok_iff_problems, problems_eq_ok_nil_iff] at valid
  rcases query.get_eq_null_or_mem parameter.word with nothing | member
  · rw [nothing]
    refine ⟨[], rfl, ?_⟩
    intro s impossible
    cases impossible
  · rcases problem?_eq_ok_none_iff.mp (valid _ member) with ⟨tokens, read, isAccepted⟩
    have found : validatorFor? [] parameter.word = some (validatorOf parameter) := by
      show (Parameter.ofWord? parameter.word).map validatorOf = _
      rw [Parameter.ofWord?_word]
      rfl
    exact ⟨tokens, read, isAccepted.valid _ found⟩

end Accepted

end LedgerQuery.Request
