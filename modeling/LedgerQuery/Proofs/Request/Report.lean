import LedgerQuery.Proofs.Given
import LedgerQuery.Proofs.Request.Validate

/-!
# Reported problems

A request that does not pass is refused with the problems of all its parameters.
The main statement is that the report is complete and without repetition: it has
one problem for each bad parameter, in the order of the query, and each problem
is the first that the parameter has.  There is no report where a number of too
many digits would have to be written: one that an accepted parameter is given, or
the limit that it exceeds.
-/

namespace LedgerQuery

namespace Request

/-! ## One parameter -/

/-- A parameter is bad with its tokens when it is not accepted, when it has too many of them, or
when its validator rejects one of them. -/
def IsBad
    (config : Config) (accepted : List String) (validators : List (String × Validator))
    (entry : String × List String) : Prop :=
  entry.1 ∉ accepted ∨ config.maxRepeated < (entry.2.length : Int) ∨
    ∃ validator ∈ validatorFor? validators entry.1, ∃ s ∈ entry.2, acceptsToken validator s = false

instance
    (config : Config) (accepted : List String) (validators : List (String × Validator))
    (entry : String × List String) : Decidable (IsBad config accepted validators entry) :=
  inferInstanceAs (Decidable (entry.1 ∉ accepted ∨ config.maxRepeated < (entry.2.length : Int) ∨
    ∃ validator ∈ validatorFor? validators entry.1,
      ∃ s ∈ entry.2, acceptsToken validator s = false))

/-- The problem of a bad parameter: an unknown one is reported as such whatever its tokens are, and
the tokens of one that is given too often are not looked at. -/
def problemOf (config : Config) (accepted : List String) (entry : String × List String) : Problem :=
  if entry.1 ∉ accepted then .unknown entry.1
  else if config.maxRepeated < (entry.2.length : Int) then
    .tooMany entry.1 entry.2.length config.maxRepeated
  else .invalid entry.1

section Report

variable {config : Config} {accepted : List String} {validators : List (String × Validator)}

theorem key_problemOf (entry : String × List String) :
    (problemOf config accepted entry).key = entry.1 := by
  rw [problemOf]
  split_ifs <;> rfl

theorem isBad_iff_not_isAccepted {key : String} {values : List String} :
    IsBad config accepted validators (key, values) ↔
      ¬IsAccepted config accepted validators key values := by
  constructor
  · rintro (unknown | many | ⟨validator, found, s, member, rejected⟩) isAccepted
    · exact unknown isAccepted.known
    · exact Int.not_lt.mpr isAccepted.few many
    · have valid := isAccepted.valid validator found s member
      rw [rejected] at valid
      cases valid
  · intro refused
    by_contra good
    simp only [IsBad, not_or, not_not, Int.not_lt, not_exists, not_and, Bool.not_eq_false] at good
    exact refused ⟨good.1, good.2.1, good.2.2⟩

theorem valuesProblem?_of_many
    {key : String} {values : List String} (many : config.maxRepeated < (values.length : Int)) :
    valuesProblem? config validators key values =
      (tooMany config key values.length).map some := by
  rw [valuesProblem?, isAllowedCount, decide_eq_false (Int.not_le.mpr many)]
  rfl

/-- The problem found with the values of a known parameter is that of a bad one. -/
theorem valuesProblem?_eq
    {key : String} (known : key ∈ accepted) {values : List String}
    (worded : config.maxRepeated < (values.length : Int) →
      (Value.int config.maxRepeated).IsShowable) :
    valuesProblem? config validators key values =
      .ok (if IsBad config accepted validators (key, values) then
        some (problemOf config accepted (key, values))
      else none) := by
  rw [problemOf, if_neg (not_not.mpr known)]
  by_cases many : config.maxRepeated < (values.length : Int)
  · have bad : IsBad config accepted validators (key, values) := .inr (.inl many)
    rw [if_pos bad, if_pos many, valuesProblem?_of_many many, tooMany,
      Value.ifWritable_of_isShowable (worded many)]
    rfl
  · have bad : IsBad config accepted validators (key, values) ↔
        ∃ validator ∈ validatorFor? validators key,
          ∃ s ∈ values, acceptsToken validator s = false := by
      rw [IsBad, or_iff_right (not_not.mpr known), or_iff_right many]
    rw [if_neg many, valuesProblem?, isAllowedCount, decide_eq_true (Int.not_lt.mp many),
      Bool.not_true, if_neg Bool.false_ne_true]
    simp only [bad]
    cases validatorFor? validators key with
    | none =>
      rw [if_neg]
      rintro ⟨_, impossible, -⟩
      cases impossible
    | some validator =>
      have rejects : (∃ found ∈ some validator, ∃ s ∈ values, acceptsToken found s = false) ↔
          ¬values.all (acceptsToken validator) = true := by
        simp [Option.mem_def]
      simp only [rejects, ite_not]
      split <;> rfl

/-- Something that has too many digits has to be written for an accepted parameter: its value, or
the limit that is exceeded. -/
def IsOverlong (config : Config) (accepted : List String) (entry : String × Value) : Prop :=
  entry.1 ∈ accepted ∧
    (¬entry.2.IsShowable ∨
      config.maxRepeated < (entry.2.texts.length : Int) ∧
        ¬(Value.int config.maxRepeated).IsShowable)

/-- A parameter is reported exactly when it is bad. -/
theorem problem?_eq
    {entry : String × Value} (offered : entry.2.hasTexts = true)
    (short : ¬IsOverlong config accepted entry) :
    problem? config accepted validators entry =
      .ok (if IsBad config accepted validators (entry.1, entry.2.texts) then
        some (problemOf config accepted (entry.1, entry.2.texts))
      else none) := by
  by_cases known : entry.1 ∈ accepted
  · rw [IsOverlong, and_iff_right known, not_or, not_not, not_and, not_not] at short
    rw [problem?, if_pos (List.contains_iff_mem.mpr known), valueTexts_of_hasTexts offered,
      Value.ifWritable_of_isShowable short.1, ok_bind, valuesProblem?_eq known short.2]
  · have bad : IsBad config accepted validators (entry.1, entry.2.texts) := .inl known
    rw [problem?, if_neg (mt List.contains_iff_mem.mp known), if_pos bad, problemOf, if_pos known]

theorem problem?_of_isOverlong
    {entry : String × Value} (offered : entry.2.hasTexts = true)
    (overlong : IsOverlong config accepted entry) :
    problem? config accepted validators entry = .error (.unreadable .writeLimit) := by
  rcases overlong with ⟨known, reason⟩
  rw [problem?, if_pos (List.contains_iff_mem.mpr known), valueTexts_of_hasTexts offered]
  by_cases showable : entry.2.IsShowable
  · rcases reason.resolve_left (not_not.mpr showable) with ⟨many, unworded⟩
    rw [Value.ifWritable_of_isShowable showable, ok_bind, valuesProblem?_of_many many, tooMany,
      Value.ifWritable_of_not_isShowable unworded]
    rfl
  · rw [Value.ifWritable_of_not_isShowable showable]
    rfl

/-! ## All parameters -/

/-- The keys of a query with the texts of their values. -/
def tokensOf (query : Query) : List (String × List String) :=
  query.map fun entry => (entry.1, entry.2.texts)

theorem reports_eq (query : Query) :
    (query.map fun entry =>
        if IsBad config accepted validators (entry.1, entry.2.texts) then
          some (problemOf config accepted (entry.1, entry.2.texts))
        else none).filterMap id =
      ((tokensOf query).filter (IsBad config accepted validators ·)).map
        (problemOf config accepted) := by
  induction query with
  | nil => rfl
  | cons entry query ih =>
    have first : tokensOf (entry :: query) = (entry.1, entry.2.texts) :: tokensOf query := rfl
    rw [List.map_cons, List.filterMap_cons, ih, first, List.filter_cons]
    by_cases bad : IsBad config accepted validators (entry.1, entry.2.texts)
    · simp [bad]
    · simp [bad]

section Query

variable {query : Query} (offered : ∀ entry ∈ query, entry.2.hasTexts = true)

include offered

/-- A request that can be reported passes when none of its parameters is bad, and otherwise is
refused with the problems of those that are. -/
theorem result_validate_eq (short : ∀ entry ∈ query, ¬IsOverlong config accepted entry) :
    (validate config accepted validators query).result =
      if (tokensOf query).filter (IsBad config accepted validators ·) = [] then .ok ()
      else .error (.argument (.problems
        (((tokensOf query).filter (IsBad config accepted validators ·)).map
          (problemOf config accepted)))) := by
  have judged : problems config accepted validators query =
      .ok (((tokensOf query).filter (IsBad config accepted validators ·)).map
        (problemOf config accepted)) := by
    rw [problems, mapM_of_forall_ok fun entry member =>
      problem?_eq (offered entry member) (short entry member), ← reports_eq]
    rfl
  rw [validate, Traced.result_bind, Traced.result_lift, judged, ok_bind]
  cases (tokensOf query).filter (IsBad config accepted validators ·) with
  | nil => rfl
  | cons first others => rfl

theorem result_validate_of_isOverlong
    (overlong : ∃ entry ∈ query, IsOverlong config accepted entry) :
    (validate config accepted validators query).result = .error (.unreadable .writeLimit) := by
  rcases overlong with ⟨entry, member, overlong⟩
  have each : ∀ entry ∈ query, ∀ other,
      problem? config accepted validators entry = .error other →
        other = .unreadable .writeLimit := by
    intro entry member other failed
    by_cases long : IsOverlong config accepted entry
    · cases failed.symm.trans (problem?_of_isOverlong (offered entry member) long)
      rfl
    · cases failed.symm.trans (problem?_eq (offered entry member) long)
  have judged : problems config accepted validators query = .error (.unreadable .writeLimit) := by
    rw [problems, mapM_eq_error_of_mem each member
      (problem?_of_isOverlong (offered entry member) overlong)]
    rfl
  rw [validate, Traced.result_bind, Traced.result_lift, judged]
  rfl

end Query

end Report

/--
The report of a request whose values are texts, whole numbers or lists, or
nothing.  A number of too many digits that has to be written is the only other
fault.  Where there is none, the request passes exactly when none of its
parameters is bad.  Otherwise it is refused as a bad argument: the parameters of
the fault are the bad ones, each once and in the order of the query, and there is
one message for each of them, which says that it is unknown, else that it is given
too often, else that a value is invalid.  Without validators of the request those
of the engine count.
-/
theorem validate_reports
    {query : Query} (offered : ∀ entry ∈ query, entry.2.hasTexts = true)
    (distinct : (query.map Prod.fst).Nodup)
    (config : Config) (accepted : List String) (validators : List (String × Validator)) :
    let bad := (tokensOf query).filter (IsBad config accepted validators ·)
    (∃ entry ∈ query, IsOverlong config accepted entry) ∧
        (validate config accepted validators query).result = .error (.unreadable .writeLimit) ∨
      (¬∃ entry ∈ query, IsOverlong config accepted entry) ∧
        ((validate config accepted validators query).result = .ok () ↔ bad = []) ∧
        (bad ≠ [] → ∃ cause : ArgumentFault,
          (validate config accepted validators query).result = .error (.argument cause) ∧
            cause.params = bad.map Prod.fst ∧ cause.params.Nodup ∧
            cause.messages = bad.map fun entry => (problemOf config accepted entry).message) := by
  intro bad
  by_cases overlong : ∃ entry ∈ query, IsOverlong config accepted entry
  · exact Or.inl ⟨overlong, result_validate_of_isOverlong offered overlong⟩
  refine Or.inr ⟨overlong, ?_⟩
  have short : ∀ entry ∈ query, ¬IsOverlong config accepted entry :=
    fun entry member long => overlong ⟨entry, member, long⟩
  have outcome : (validate config accepted validators query).result = if bad = [] then .ok ()
      else .error (.argument (.problems (bad.map (problemOf config accepted)))) :=
    result_validate_eq offered short
  constructor
  · rw [outcome]
    split_ifs with good
    · exact iff_of_true rfl good
    · exact iff_of_false nofun good
  · intro some
    have params : (ArgumentFault.problems (bad.map (problemOf config accepted))).params =
        bad.map Prod.fst := by
      rw [ArgumentFault.params, List.map_map]
      exact List.map_congr_left fun entry _ => key_problemOf entry
    have once : ((tokensOf query).map Prod.fst).Nodup := by
      rw [tokensOf, List.map_map]
      exact distinct
    refine ⟨.problems (bad.map (problemOf config accepted)), ?_, params, ?_, ?_⟩
    · rw [outcome, if_neg some]
    · rw [params]
      exact once.sublist (List.filter_sublist.map Prod.fst)
    · rw [ArgumentFault.messages, List.map_map]
      rfl

/-- An unknown parameter, a list that holds nothing once, three tokens where two are allowed, and
an operator in front of a page size; two more parameters are good. -/
theorem validate_reports_four :
    let query : Query :=
      [("name", .text "z"), ("account.id", .list [.text "0.0.7", .null]), ("order", .null),
        ("token.id", .list [.int 1, .text "x", .int 3]),
        ("timestamp", .list [.text "lt:5", .int 7]), ("limit", .text "gt:10")]
    let accepted := ["account.id", "limit", "order", "timestamp", "token.id"]
    let config : Config := { maxRepeated := 2 }
    (∀ entry ∈ query, entry.2.hasTexts = true) ∧ (query.map Prod.fst).Nodup ∧
      ∃ cause : ArgumentFault,
        (validate config accepted [] query).result = .error (.argument cause) ∧
          cause.params = ["name", "account.id", "token.id", "limit"] ∧
          cause.messages = ["Unknown query parameter: name", "Invalid parameter: account.id",
            "Too many token.id parameters: 3 exceeds 2", "Invalid parameter: limit"] := by
  intro query accepted config
  have offered : ∀ entry ∈ query, entry.2.hasTexts = true := by decide
  have distinct : (query.map Prod.fst).Nodup := by decide
  have writable : ∀ entry ∈ query, entry.2.isWritable = true := by decide +kernel
  have limit : (Value.int config.maxRepeated).isWritable = true := by decide +kernel
  have short : ¬∃ entry ∈ query, IsOverlong config accepted entry := by
    rintro ⟨entry, member, -, unshowable | ⟨-, unworded⟩⟩
    · exact unshowable ((Value.isWritable_iff _).mp (writable entry member))
    · exact unworded ((Value.isWritable_iff _).mp limit)
  have bad : (tokensOf query).filter (IsBad config accepted [] ·) =
      [("name", ["z"]), ("account.id", ["0.0.7", "None"]), ("token.id", ["1", "x", "3"]),
        ("limit", ["gt:10"])] := by
    decide +kernel
  rcases (validate_reports offered distinct config accepted []).resolve_left
    fun overlong => short overlong.1 with ⟨-, -, refused⟩
  rw [bad] at refused
  rcases refused (List.cons_ne_nil _ _) with ⟨cause, failed, params, -, messages⟩
  refine ⟨offered, distinct, cause, failed, params, messages.trans ?_⟩
  decide +kernel

/-- A page size of too many digits for a parameter that is known. -/
theorem validate_refuted :
    let query : Query := [("limit", .int (10 ^ digitLimit))]
    (∀ entry ∈ query, entry.2.hasTexts = true) ∧ (query.map Prod.fst).Nodup ∧
      (validate .standard ["limit"] [] query).result = .error (.unreadable .writeLimit) ∧
      ¬((validate .standard ["limit"] [] query).result = .ok () ∨
        ∃ cause, (validate .standard ["limit"] [] query).result = .error (.argument cause)) := by
  intro query
  have offered : ∀ entry ∈ query, entry.2.hasTexts = true := List.forall_mem_singleton.mpr rfl
  have overlong : ∃ entry ∈ query, IsOverlong .standard ["limit"] entry :=
    ⟨_, List.mem_cons_self, List.mem_cons_self, Or.inl Value.not_isShowable_pow⟩
  have failed : (validate .standard ["limit"] [] query).result = .error (.unreadable .writeLimit) :=
    result_validate_of_isOverlong offered overlong
  refine ⟨offered, by decide, failed, ?_⟩
  rw [failed]
  rintro (impossible | ⟨cause, impossible⟩) <;> cases impossible

end Request

end LedgerQuery
