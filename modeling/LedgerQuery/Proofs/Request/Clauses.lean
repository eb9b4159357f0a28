import LedgerQuery.Clause.Parameter
import LedgerQuery.Proofs.Clause.Pairs
import LedgerQuery.Proofs.EntityId.Text
import LedgerQuery.Proofs.Given
import LedgerQuery.Proofs.Request.Validate
import LedgerQuery.Proofs.Timestamp.Agreement

/-!
# Clauses of accepted requests

A request is checked by validators and turned into clauses by encoders, which
read the texts on their own.  The main statement says that they agree: whatever
passes the validators has clauses for all known parameters, and each clause
spells out all tokens of its parameter.
-/

namespace LedgerQuery

/-! ## What validators accept is encoded -/

namespace EntityId

/-- An id that is valid by itself is one under every configuration with a shard and a realm. -/
theorem exists_ofText?
    {config : Config} (shard : 0 ≤ config.shard ∧ config.shard < 1024)
    (realm : 0 ≤ config.realm ∧ config.realm < 65536)
    {s : String} (valid : (ofText? .standard s).isSome = true) :
    ∃ id, ofText? config s = some id := by
  rcases Option.isSome_iff_exists.mp valid with ⟨known, read⟩
  rcases (ofText?_eq_some_iff.mp read).exists_of_inRange shard realm with ⟨id, spelled⟩
  exact ⟨id, ofText?_eq_some_iff.mpr spelled⟩

end EntityId

theorem accountEncoder_of_ofText?
    {config : Config} {v : Value} {id : EntityId}
    (read : EntityId.ofText? config v.plain = some id) :
    accountEncoder config v = .ok (.int id.encoded) := by
  have parsed : EntityId.parse config (some Parameter.accountId.word) v = .ok id := by
    rw [← EntityId.parse_plain (EntityId.isShowable_of_ofText? read)]
    exact EntityId.parse_eq_ok_iff.mpr (EntityId.ofText?_eq_some_iff.mp read)
  rw [accountEncoder, parsed]
  rfl

theorem exists_accountEncoder
    {config : Config} (shard : 0 ≤ config.shard ∧ config.shard < 1024)
    (realm : 0 ≤ config.realm ∧ config.realm < 65536)
    {s : String} (valid : EntityId.isValid (.text s) = true) :
    ∃ n, accountEncoder config (.text s) = .ok (.int n) := by
  rcases EntityId.exists_ofText? shard realm valid with ⟨id, read⟩
  exact ⟨id.encoded, accountEncoder_of_ofText? read⟩

theorem exists_timestampEncoder {s : String} (valid : Field.isTimestamp (.text s) = true) :
    ∃ n, timestampEncoder (.text s) = .ok (.int n) := by
  rcases Timestamp.exists_parseTimestamp valid with ⟨n, parsed⟩
  exact ⟨n, congrArg Except.ok parsed⟩

theorem exists_balanceEncoder {s : String} (valid : Field.isNumeric (.text s) = true) :
    ∃ t, balanceEncoder (.text s) = .ok (.text t) :=
  ⟨s, congrArg Except.ok (if_pos valid)⟩

theorem exists_publicKeyEncoder {s : String} (valid : PublicKey.isValid (.text s) = true) :
    ∃ t, publicKeyEncoder (.text s) = .ok (.text t) := by
  rcases Option.isSome_iff_exists.mp valid with ⟨digits, canonical⟩
  exact ⟨digits, congrArg Except.ok (PublicKey.parse_text canonical)⟩

/-! ## Clauses -/

/-- There is a clause, and it spells out all tokens that a query has for a parameter. -/
def SpellsParameter
    (compiled : Traced Clause) (query : Query) (parameter : Parameter) (column : Column)
    (encoder : Encoder) : Prop :=
  ∃ clause tokens, compiled.result = .ok clause ∧
    valueTexts (query.get parameter.word) = .ok tokens ∧ clause.Spells column encoder tokens

section Accepted

variable {limits : Config} {accepted : List String} {query : Query}

/-- Where an encoder binds what the validator of a parameter accepts, the clause of an accepted
request spells out the parameter. -/
theorem spellsParameter_of_validate
    (given : ∀ entry ∈ query, entry.2.isGiven = true)
    (valid : (Request.validate limits accepted [] query).result = .ok ())
    (parameter : Parameter) (column : Column) (noEscape : '\\' ∉ column.name.toList)
    {gatherEq : Bool} (plain : gatherEq = true → column.rendered .eq = .eq)
    {α : Type} {value : α → Value} (kind : Value.IsKeyKind value) {encoder : Encoder}
    (binds : ∀ s, Request.acceptsToken (Request.validatorOf parameter) s = true →
      ∃ a, encoder (.text (Token.parse s).value) = .ok (value a)) :
    let rule : ClauseRule :=
      { builder := column.builder, encoder := some encoder, gatherEq := gatherEq }
    SpellsParameter (compile rule (query.get parameter.word)) query parameter column encoder := by
  intro rule
  rcases Request.exists_texts_of_validate valid parameter with ⟨tokens, read, allValid⟩
  have isGiven := query.isGiven_get given parameter.word
  have bound : ∀ s ∈ tokens, ∃ a, encoder (.text (Token.parse s).value) = .ok (value a) := by
    intro s member
    exact binds s (allValid s member)
  have builder : rule.builder = column.builder := rfl
  rcases exists_compile_spells kind builder noEscape plain rfl rfl
    (criteria_of_isGiven isGiven read) bound with ⟨clause, compiled, spells⟩
  exact ⟨clause, tokens, compiled, read, spells⟩

/--
A request that the engine's own validators accept has clauses for all known
parameters, for every column without a backslash in its name and whatever the
configuration supplies as shard and realm.  Nothing is dropped: the clauses pair
the operators and the encoded values of all tokens of their parameters, and no
others.
-/
theorem spellsParameter_of_accepted
    (given : ∀ entry ∈ query, entry.2.isGiven = true)
    (valid : (Request.validate limits accepted [] query).result = .ok ())
    {config : Config} (shard : 0 ≤ config.shard ∧ config.shard < 1024)
    (realm : 0 ≤ config.realm ∧ config.realm < 65536)
    {column : Column} (noEscape : '\\' ∉ column.name.toList) :
    SpellsParameter (accountClause config column.name query) query .accountId ⟨column.name, []⟩
        (accountEncoder config) ∧
      SpellsParameter (timestampClause column query) query .timestamp column timestampEncoder ∧
      SpellsParameter (balanceClause column.name query) query .accountBalance ⟨column.name, []⟩
        balanceEncoder ∧
      SpellsParameter (publicKeyClause column.name query) query .accountPublicKey
        ⟨column.name, []⟩ publicKeyEncoder := by
  refine ⟨?_, ?_, ?_, ?_⟩
  · apply spellsParameter_of_validate given valid .accountId ⟨column.name, []⟩ noEscape
      (fun _ => rfl) Value.isKeyKind_int
    intro s isValid
    exact exists_accountEncoder shard realm isValid
  · apply spellsParameter_of_validate given valid .timestamp column noEscape
      (fun apart => by cases apart) Value.isKeyKind_int
    intro s isValid
    exact exists_timestampEncoder isValid
  · apply spellsParameter_of_validate given valid .accountBalance ⟨column.name, []⟩ noEscape
      (fun _ => rfl) Value.isKeyKind_text
    intro s isValid
    exact exists_balanceEncoder isValid
  · apply spellsParameter_of_validate given valid .accountPublicKey ⟨column.name, []⟩ noEscape
      (fun _ => rfl) Value.isKeyKind_text
    intro s isValid
    have both : ((Token.parse s).operator == .eq &&
      PublicKey.isValid (.text (Token.parse s).value)) = true := isValid
    rw [Bool.and_eq_true] at both
    exact exists_publicKeyEncoder both.2

end Accepted

/-- One account in two notations, a time, a balance, and a key in capitals. -/
theorem spellsParameter_of_accepted_key :
    let key := String.ofList (List.replicate 64 'A')
    let query : Query :=
      [("account.id", .list [.text "0.0.7", .int 7, .text "ne:1.2.3"]),
        ("timestamp", .text "1.5"), ("account.balance", .text "lt:-0.50"),
        ("account.publickey", .list [.text ("eq:0X" ++ key)])]
    let config : Config := { shard := 3, realm := 5 }
    let column : Column := ⟨"a.\"?", [(.eq, .lte)]⟩
    (∀ entry ∈ query, entry.2.isGiven = true) ∧
      (Request.validate .standard (query.map Prod.fst) [] query).result = .ok () ∧
      SpellsParameter (accountClause config column.name query) query .accountId ⟨column.name, []⟩
        (accountEncoder config) ∧
      SpellsParameter (timestampClause column query) query .timestamp column timestampEncoder ∧
      SpellsParameter (balanceClause column.name query) query .accountBalance ⟨column.name, []⟩
        balanceEncoder ∧
      SpellsParameter (publicKeyClause column.name query) query .accountPublicKey
        ⟨column.name, []⟩ publicKeyEncoder := by
  intro key query config column
  have given : ∀ entry ∈ query, entry.2.isGiven = true := by decide
  have valid : (Request.validate .standard (query.map Prod.fst) [] query).result = .ok () := by
    rw [Request.result_validate_eq_ok_iff_problems]
    decide +kernel
  have shard : 0 ≤ config.shard ∧ config.shard < 1024 := by decide
  have realm : 0 ≤ config.realm ∧ config.realm < 65536 := by decide
  have noEscape : '\\' ∉ column.name.toList := by decide
  exact ⟨given, valid, spellsParameter_of_accepted given valid shard realm noEscape⟩

end LedgerQuery
