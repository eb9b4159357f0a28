import LedgerQuery.Proofs.Field.Timestamp
import LedgerQuery.Proofs.Request.Clauses

/-!
# Bound numbers of accepted requests

The ids and timestamps of an accepted request are bound as whole numbers.  An id takes sixty-four
bits with the shard on top, and a timestamp has ten digits of seconds and nine behind the point, so
neither is kept within the signed numbers of sixty-four bits.  The main statement says how far they
reach, and for which values they are signed numbers.
-/

namespace LedgerQuery

/-! ## Numbers of ids and timestamps -/

namespace EntityId

/-- The topmost bit of an id is that of its shard. -/
theorem encoded_le_maxLong_iff (id : EntityId) : id.encoded ≤ Field.maxLong ↔ id.shard < 512 := by
  have realm := id.realm_lt
  have num := id.num_lt
  rw [encoded_eq, Field.maxLong]
  omega

end EntityId

namespace Field

open Numeral (value)

/-- A timestamp has ten digits of seconds and nine behind the point. -/
theorem value_lt_of_timestampDigits?
    {s : String} {seconds nanos : List Char} (read : timestampDigits? s = some (seconds, nanos)) :
    value seconds < 10 ^ 10 ∧ value (nineDigits nanos) < 10 ^ 9 := by
  have few := (timestampDigits?_eq_some_iff.mp read).length_le
  exact ⟨Numeral.value_lt few.1, value_nineDigits_lt few.2⟩

theorem timestampEncoder_of_timestampDigits?
    {v : Value} {s : String} (text : v.asText? = some s)
    {seconds nanos : List Char} (read : timestampDigits? s = some (seconds, nanos)) :
    timestampEncoder v =
      .ok (.int (value seconds * nanosPerSecond + value (nineDigits nanos) : Nat)) := by
  rw [timestampEncoder, parseTimestamp, text, Option.bind_some, timestampOfText?, read]
  rfl

end Field

/-! ## Encoders of numbers -/

/-- An encoder makes of a value a natural number up to a limit, which is a signed number of
sixty-four bits exactly for a signed value, or it binds nothing for a value that is signed all the
same. -/
def EncodesNumbers (encoder : Encoder) (most : Nat) (isSigned : Value → Prop) : Prop :=
  ∀ v,
    (∃ n : Nat, encoder v = .ok (.int n) ∧ n ≤ most ∧ (n ≤ Field.maxLong ↔ isSigned v)) ∨
      ((∀ u, encoder v = .ok u → u = .null) ∧ isSigned v)

/-- The shard of a value that is an id is below 512. -/
def EntityId.IsSigned (config : Config) (v : Value) : Prop :=
  ∀ id, ofText? config v.plain = some id → id.shard < 512

/-- A value that is a timestamp is at most 9223372036.854775807. -/
def Field.IsSignedTimestamp (v : Value) : Prop :=
  ∀ seconds nanos, v.asText?.bind timestampDigits? = some (seconds, nanos) →
    Numeral.value seconds < 9223372036 ∨
      Numeral.value seconds = 9223372036 ∧ Numeral.value (nineDigits nanos) ≤ 854775807

theorem encodesNumbers_accountEncoder (config : Config) :
    EncodesNumbers (accountEncoder config) ((1 <<< 64) - 1) (EntityId.IsSigned config) := by
  intro v
  cases read : EntityId.ofText? config v.plain with
  | none =>
    refine Or.inr ⟨?_, ?_⟩
    · intro u encoded
      rcases map_eq_ok.mp encoded with ⟨id, parsed, -⟩
      by_cases showable : v.IsShowable
      · rw [← EntityId.parse_plain showable, EntityId.parse_eq_ok_iff,
          ← EntityId.ofText?_eq_some_iff, read] at parsed
        cases parsed
      · rw [EntityId.parse_of_not_isShowable showable] at parsed
        cases parsed
    · intro id impossible
      rw [read] at impossible
      cases impossible
  | some id =>
    refine Or.inl ⟨id.encoded, accountEncoder_of_ofText? read, id.encoded_le, ?_⟩
    rw [id.encoded_le_maxLong_iff, EntityId.IsSigned, read]
    simp only [Option.some.injEq, forall_eq']

theorem encodesNumbers_timestampEncoder :
    EncodesNumbers timestampEncoder (10 ^ 19 - 1) Field.IsSignedTimestamp := by
  intro v
  cases digits : v.asText?.bind Field.timestampDigits? with
  | none =>
    have noTimestamp : v.asText?.bind Field.timestampOfText? = none := by
      rw [← Option.map_none, ← digits, Option.map_bind]
      rfl
    refine Or.inr ⟨?_, ?_⟩
    · intro u encoded
      rw [timestampEncoder, Field.parseTimestamp, noTimestamp] at encoded
      exact (Except.ok.inj encoded).symm
    · intro seconds nanos impossible
      rw [digits] at impossible
      cases impossible
  | some parts =>
    rcases parts with ⟨seconds, nanos⟩
    rcases Option.bind_eq_some_iff.mp digits with ⟨s, text, read⟩
    have few := Field.value_lt_of_timestampDigits? read
    refine Or.inl ⟨_, Field.timestampEncoder_of_timestampDigits? text read, ?_, ?_⟩
    · rw [Field.nanosPerSecond]
      omega
    · rw [Field.IsSignedTimestamp, digits, Field.nanosPerSecond, Field.maxLong]
      simp only [Option.some.injEq, Prod.mk.injEq, and_imp, forall_eq', forall_apply_eq_imp_iff]
      omega

/-! ## Bound numbers -/

/-- All values of a clause are natural numbers up to a limit. -/
def Clause.BindsUpTo (clause : Clause) (most : Nat) : Prop :=
  ∀ v ∈ clause.values, ∃ n : Nat, v = .int n ∧ n ≤ most

/-- The clauses of a value bind numbers up to a limit, and none beyond the signed numbers of
sixty-four bits exactly where all criteria of the value are signed. -/
def BindsNumbers
    (compiled : Traced Clause) (raw : Value) (most : Nat) (isSigned : Value → Prop) : Prop :=
  ∀ clause, compiled.result = .ok clause →
    ∃ found, criteria raw = .ok found ∧ clause.BindsUpTo most ∧
      (clause.BindsUpTo Field.maxLong ↔ ∀ c ∈ found, isSigned c.2)

/-- Where an encoder makes numbers, the clauses of a column bind these numbers. -/
theorem bindsNumbers_of_encodesNumbers
    {encoder : Encoder} {most : Nat} {isSigned : Value → Prop}
    (numbers : EncodesNumbers encoder most isSigned)
    (column : Column) (gatherEq : Bool) (raw : Value) :
    let rule : ClauseRule :=
      { builder := column.builder, encoder := some encoder, gatherEq := gatherEq }
    BindsNumbers (compile rule raw) raw most isSigned := by
  intro rule clause compiled
  have builder : rule.builder = column.builder := rfl
  have number (c bound : Criterion) (binds : rule.Binds c bound) :
      ∃ n : Nat, bound.2 = .int n ∧ n ≤ most ∧ (n ≤ Field.maxLong ↔ isSigned c.2) := by
    have encoded : encoder c.2 = .ok bound.2 := binds.encoded
    rcases numbers c.2 with ⟨n, encodes, inRange, signed⟩ | ⟨nothing, -⟩
    · rw [encodes] at encoded
      exact ⟨n, (Except.ok.inj encoded).symm, inRange, signed⟩
    · exact absurd (nothing bound.2 encoded) binds.retained
  have forms : ∀ c bound, rule.Binds c bound → ∃ a, bound.2 = .int a := by
    intro c bound binds
    rcases number c bound binds with ⟨n, ofNumber, -⟩
    exact ⟨n, ofNumber⟩
  rcases mem_values_of_compile Value.isKeyKind_int builder compiled forms with
    ⟨found, read, values⟩
  refine ⟨found, read, ?_, ?_, ?_⟩
  · intro v member
    rcases (values v).mp member with ⟨c, -, bound, binds, rfl⟩
    rcases number c bound binds with ⟨n, ofNumber, inRange, -⟩
    exact ⟨n, ofNumber, inRange⟩
  · intro below c inside
    rcases numbers c.2 with ⟨n, encodes, -, signed⟩ | ⟨-, signed⟩
    · have binds : rule.Binds c (c.1, .int n) := ⟨rfl, rfl, encodes, Value.noConfusion, rfl⟩
      rcases below (.int n) ((values _).mpr ⟨c, inside, _, binds, rfl⟩) with ⟨m, same, small⟩
      rw [Int.ofNat.inj (Value.int.inj same)] at signed
      exact signed.mp small
    · exact signed
  · intro allSigned v member
    rcases (values v).mp member with ⟨c, inside, bound, binds, rfl⟩
    rcases number c bound binds with ⟨n, ofNumber, -, signed⟩
    exact ⟨n, ofNumber, signed.mpr (allSigned c inside)⟩

section Accepted

variable {limits : Config} {accepted : List String} {query : Query}

/-- Where an encoder converts what the validator of a parameter accepts, an accepted request has a
clause for the parameter. -/
theorem exists_clause_of_validate
    (valid : (Request.validate limits accepted [] query).result = .ok ())
    (parameter : Parameter) (column : Column) (noEscape : '\\' ∉ column.name.toList)
    {gatherEq : Bool} (plain : gatherEq = true → column.rendered .eq = .eq) {encoder : Encoder}
    (encodes : ∀ s v, Request.acceptsToken (Request.validatorOf parameter) s = true →
      (Token.parse s).value = v.plain → ∃ u, encoder v = .ok u ∧ u.isKey = true) :
    let rule : ClauseRule :=
      { builder := column.builder, encoder := some encoder, gatherEq := gatherEq }
    ∃ clause, (compile rule (query.get parameter.word)).result = .ok clause := by
  intro rule
  rcases Request.exists_texts_of_validate valid parameter with ⟨tokens, readTexts, allValid⟩
  rcases exists_criteria_of_valueTexts readTexts with ⟨found, read, parsed⟩
  have bound : ∀ c ∈ found, rule.allows c.1 = true ∧
      ∃ u, encodeWith rule.encoder c.2 = .ok u ∧ u.isKey = true := by
    intro c inside
    have isToken : (⟨c.1, c.2.plain⟩ : Token) ∈ tokens.map Token.parse := by
      rw [parsed]
      exact List.mem_map_of_mem inside
    rcases List.mem_map.mp isToken with ⟨s, asked, same⟩
    exact ⟨rfl, encodes s c.2 (allValid s asked) (congrArg Token.value same)⟩
  rcases exists_retain bound [] with ⟨retained, kept⟩
  have builder : rule.builder = column.builder := rfl
  have keys : ∀ c ∈ retained, c.2.isKey = true := fun _ => isKey_of_mem_retain kept
  have listed : gatheredValues rule retained ≠ [] → column.HasListForm := by
    intro gathered
    cases gathers : gatherEq with
    | true => exact Or.inl (plain gathers)
    | false => exact absurd (gatheredValues_of_apart gathers retained) gathered
  rw [result_compile, read, ok_bind, kept, ok_bind]
  exact exists_assemble builder noEscape keys listed

/--
The account and timestamp clauses of a request that the engine's own validators
accept bind natural numbers: ids of sixty-four bits, and nanoseconds of at most
nineteen digits.  They are signed numbers of sixty-four bits unless an id has a
shard from 512 on, or a timestamp is later than 9223372036.854775807.  There are
clauses for every column without a backslash in its name.
-/
theorem bindsNumbers_of_accepted
    (valid : (Request.validate limits accepted [] query).result = .ok ())
    {config : Config} (shard : 0 ≤ config.shard ∧ config.shard < 1024)
    (realm : 0 ≤ config.realm ∧ config.realm < 65536) (column : Column) :
    BindsNumbers (accountClause config column.name query) (query.get Parameter.accountId.word)
        ((1 <<< 64) - 1) (EntityId.IsSigned config) ∧
      BindsNumbers (timestampClause column query) (query.get Parameter.timestamp.word)
        (10 ^ 19 - 1) Field.IsSignedTimestamp ∧
      ('\\' ∉ column.name.toList →
        (∃ clause, (accountClause config column.name query).result = .ok clause) ∧
          ∃ clause, (timestampClause column query).result = .ok clause) := by
  refine ⟨?_, ?_, ?_⟩
  · exact bindsNumbers_of_encodesNumbers (encodesNumbers_accountEncoder config) ⟨column.name, []⟩
      true (query.get Parameter.accountId.word)
  · exact bindsNumbers_of_encodesNumbers encodesNumbers_timestampEncoder column false
      (query.get Parameter.timestamp.word)
  · intro noEscape
    constructor
    · apply exists_clause_of_validate valid .accountId ⟨column.name, []⟩ noEscape (fun _ => rfl)
      intro s v isValid text
      have isId : (EntityId.ofText? .standard (Token.parse s).value).isSome = true := isValid
      rw [text] at isId
      rcases EntityId.exists_ofText? shard realm isId with ⟨id, read⟩
      exact ⟨_, accountEncoder_of_ofText? read, rfl⟩
    · apply exists_clause_of_validate valid .timestamp column noEscape
        (fun apart => by cases apart)
      intro s v _ _
      rcases encodesNumbers_timestampEncoder v with ⟨n, encodes, -⟩ | ⟨nothing, -⟩
      · exact ⟨_, encodes, rfl⟩
      · exact ⟨.null, congrArg Except.ok (nothing _ rfl), rfl⟩

end Accepted

/-- The last id and the last timestamp that are signed numbers; a bare number takes its shard from
the configuration, and a time that is read already but no text is not bound. -/
theorem bindsNumbers_of_accepted_last :
    let query : Query :=
      [("account.id", .list [.text "511.65535.274877906943", .text "lt:7"]),
        ("timestamp", .tuple [.text "lte:9223372036.854775807", .pair .ne (.int 9999999999)])]
    let config : Config := { shard := 1023, realm := 65535 }
    let column : Column := ⟨"id", []⟩
    (Request.validate .standard (query.map Prod.fst) [] query).result = .ok () ∧
      BindsNumbers (accountClause config column.name query) (query.get Parameter.accountId.word)
        ((1 <<< 64) - 1) (EntityId.IsSigned config) ∧
      BindsNumbers (timestampClause column query) (query.get Parameter.timestamp.word)
        (10 ^ 19 - 1) Field.IsSignedTimestamp ∧
      (∃ clause, (accountClause config column.name query).result = .ok clause) ∧
      ∃ clause, (timestampClause column query).result = .ok clause := by
  intro query config column
  have valid : (Request.validate .standard (query.map Prod.fst) [] query).result = .ok () := by
    rw [Request.result_validate_eq_ok_iff_problems]
    decide +kernel
  have shard : 0 ≤ config.shard ∧ config.shard < 1024 := by decide
  have realm : 0 ≤ config.realm ∧ config.realm < 65536 := by decide
  have bound := bindsNumbers_of_accepted valid shard realm column
  exact ⟨valid, bound.1, bound.2.1, bound.2.2 (by decide)⟩

/-- A request is accepted, and both of its clauses bind a number beyond the signed ones. -/
theorem bindsUpTo_maxLong_refuted :
    let query : Query :=
      [("account.id", .list [.text "512.0.0"]), ("timestamp", .list [.text "9999999999"])]
    let account : Clause := ⟨"id IN (?)", [.int (1 <<< 63 : Nat)]⟩
    let timestamp : Clause := ⟨"id = ?", [.int 9999999999000000000]⟩
    (Request.validate .standard (query.map Prod.fst) [] query).result = .ok () ∧
      (accountClause .standard "id" query).result = .ok account ∧
      (timestampClause ⟨"id", []⟩ query).result = .ok timestamp ∧
      ¬account.BindsUpTo Field.maxLong ∧ ¬timestamp.BindsUpTo Field.maxLong := by
  intro query account timestamp
  refine ⟨?_, ?_, ?_, ?_, ?_⟩
  · rw [Request.result_validate_eq_ok_iff_problems]
    decide +kernel
  · cbv
  · cbv
  · intro below
    rcases below _ List.mem_cons_self with ⟨n, same, small⟩
    have value : (1 <<< 63 : Nat) = n := Int.ofNat.inj (Value.int.inj same)
    rw [← value] at small
    exact absurd small (by decide)
  · intro below
    rcases below _ List.mem_cons_self with ⟨n, same, small⟩
    have value : 9999999999000000000 = n := Int.ofNat.inj (Value.int.inj same)
    rw [← value] at small
    exact absurd small (by decide)

end LedgerQuery
