import LedgerQuery.Proofs.Paging.Exhausted
import LedgerQuery.Proofs.Paging.Fetch
import LedgerQuery.Proofs.Request.Clauses
import LedgerQuery.Proofs.Search

/-!
# Verdicts on last values

The engine's own codecs read a value or say that it cannot be compared, with one
exception: a counter has no number for nothing at all.  The comparison of a sort
key runs through the tokens kept and ends at the first that leaves out the rows
to come or cannot be read, so what it finds depends on what it meets first.

The steps past all sort keys run through the last values in the same way.  The
main statement says when they have an answer: always, unless they come to a
counter without a last value, or to a last value that cannot be written, before
a key at which the scan stops.
-/

namespace LedgerQuery.Paging

open Link (Tokens keys)

/-! ## Codecs -/

/-- A codec reads a value as a number, or it says that the value cannot be compared. -/
def Judges (codec : Encoder) (v : Value) : Prop :=
  (∃ n, Reads codec v n) ∨ ∃ fault, isUncomparable fault = true ∧ codec v = .error fault

theorem judges_of_ok {codec : Encoder} {v : Value} {n : Int} (read : codec v = .ok (.int n)) :
    Judges codec v :=
  Or.inl ⟨n, _, read, rfl⟩

theorem judges_of_error
    {codec : Encoder} {v : Value} {fault : Fault} (failed : codec v = .error fault)
    (uncomparable : isUncomparable fault = true) :
    Judges codec v :=
  Or.inr ⟨fault, uncomparable, failed⟩

/-- Ids are read from the text of a value. -/
theorem entityCodec_plain {v : Value} (showable : v.IsShowable) :
    entityCodec (.text v.plain) = entityCodec v := by
  rw [entityCodec, entityCodec, EntityId.parse, EntityId.parse, Value.written_text,
    Value.written_of_isShowable showable]

/-- Slots are read from the text of a value. -/
theorem slotCodec_plain {v : Value} (showable : v.IsShowable) :
    slotCodec (.text v.plain) = slotCodec v := by
  rw [slotCodec, slotCodec, Value.written_text, Value.written_of_isShowable showable]

theorem judges_entityCodec (v : Value) : Judges entityCodec v := by
  have read : entityCodec v =
      (EntityId.parse .standard none v).map fun id => .int id.encoded := rfl
  by_cases showable : v.IsShowable
  case neg =>
    rw [EntityId.parse_of_not_isShowable showable] at read
    exact judges_of_error read rfl
  rw [← EntityId.parse_plain showable] at read
  by_cases spelled : ∃ id, EntityId.Spells .standard (Text.line v.plain.toList) id
  · rcases spelled with ⟨id, spelled⟩
    rw [EntityId.parse_eq_ok_iff.mpr spelled] at read
    exact judges_of_ok read
  · by_cases overlong : EntityId.IsOverlong .standard (Text.line v.plain.toList)
    · rw [EntityId.parse_of_isOverlong overlong] at read
      exact judges_of_error read rfl
    · rw [EntityId.parse_of_not_spells spelled overlong] at read
      exact judges_of_error read rfl

theorem judges_slotCodec (v : Value) : Judges slotCodec v := by
  have stored : Field.formatSlot (.text v.plain) false = Field.slotBytes false v.plain := by
    rw [Field.formatSlot]
    rfl
  have read := slotCodec.eq_1 v
  by_cases showable : v.IsShowable
  case neg =>
    rw [Value.written_of_not_isShowable showable] at read
    exact judges_of_error read rfl
  rw [Value.written_of_isShowable showable, ok_bind, Field.slotValue.eq_1, stored, Field.slotBytes,
    Field.hexBytes] at read
  generalize Text.Hex.read _ = bytes at read
  cases bytes with
  | ok bytes => exact judges_of_ok read
  | error position => exact judges_of_error read rfl

theorem judges_timestampCodec (v : Value) : Judges timestampCodec v := by
  have read := timestampCodec.eq_def v
  split at read
  · exact judges_of_ok read
  · exact Or.inl ⟨_, _, read, rfl⟩
  · by_cases showable : v.IsShowable
    · rw [Value.written_of_isShowable showable, ok_bind] at read
      split at read
      · exact judges_of_ok read
      · exact judges_of_error read rfl
    · rw [Value.written_of_not_isShowable showable] at read
      exact judges_of_error read rfl

theorem judges_integerCodec {v : Value} (scalar : v.isScalar = true) : Judges integerCodec v := by
  have ofReading {w : Value} {reading : Except Misreading Int}
      (read : integerCodec w = (reading.mapError .unreadable).map .int) :
      Judges integerCodec w := by
    cases reading with
    | ok n => exact judges_of_ok read
    | error cause => exact judges_of_error read rfl
  cases v with
  | int n => exact judges_of_ok rfl
  | bool b => exact judges_of_ok rfl
  | text s => exact ofReading rfl
  | operator o => exact ofReading rfl
  | null | float | bytes | list | tuple | entity | pair | cursor | map => cases scalar

/-- The codec of a key is that of the parameter with this word. -/
theorem codecFor?_eq_some_iff {key : String} {codec : Encoder} :
    codecFor? [] key = some codec ↔
      ∃ parameter : Parameter, parameter.word = key ∧ codecOf? parameter = some codec := by
  constructor
  · intro found
    rcases Option.bind_eq_some_iff.mp found with ⟨parameter, known, isCodec⟩
    have isWord := List.find?_some known
    exact ⟨parameter, eq_of_beq isWord, isCodec⟩
  · rintro ⟨parameter, rfl, isCodec⟩
    rw [codecFor?_word, isCodec]

theorem judges_of_codecOf?
    {parameter : Parameter} {codec : Encoder} (isCodec : codecOf? parameter = some codec)
    {v : Value} (readable : parameter ∈ counters → v.isScalar = true) :
    Judges codec v := by
  cases parameter with
  | accountId | contractId | scheduleId | spenderId | tokenId =>
    cases isCodec
    exact judges_entityCodec v
  | blockNumber | nodeId | serialNumber =>
    cases isCodec
    exact judges_integerCodec (readable (by decide))
  | slot =>
    cases isCodec
    exact judges_slotCodec v
  | timestamp =>
    cases isCodec
    exact judges_timestampCodec v
  | accountBalance | accountPublicKey | limit | order => cases isCodec

theorem judges_text
    {key : String} {codec : Encoder} (found : codecFor? [] key = some codec) (s : String) :
    Judges codec (.text s) := by
  rcases codecFor?_eq_some_iff.mp found with ⟨parameter, -, isCodec⟩
  exact judges_of_codecOf? isCodec fun _ => rfl

/-! ## One sort key -/

/-- A codec finds a number in a token. -/
def IsReadable (codec : Encoder) (token : String) : Prop :=
  ∃ n, Reads codec (.text (Token.parse token).value) n

/-- A token has a number and is a bound at the end that leaves out a row. -/
def LeavesOut (order : Order) (codec : Encoder) (row : Int) (token : String) : Prop :=
  ∃ n, Reads codec (.text (Token.parse token).value) n ∧
    ¬EndAdmits order (Token.parse token).operator n row

/-- The comparison of a sort key ends at a token kept that leaves out the first row to come. -/
def Closes (order : Order) (codec : Encoder) (tokens : List String) (mark : LastValue) : Prop :=
  ∃ last, Reads codec mark.value last ∧
    Reaches (IsReadable codec) (LeavesOut order codec (firstBehind order mark.inclusive last))
      (keptTokens order tokens)

/-- A comparison finds that nothing is left, or it finds the contrary or nothing. -/
def Finds (closes : Prop) (outcome : Except Fault Bool) : Prop :=
  (closes ∧ outcome = .ok true) ∨
    (¬closes ∧ (outcome = .ok false ∨
      ∃ fault, isUncomparable fault = true ∧ outcome = .error fault))

section Comparison

variable {order : Order} {codec : Encoder}

theorem Reads.leavesOut_iff
    {token : String} {n : Int} (reads : Reads codec (.text (Token.parse token).value) n)
    {row : Int} :
    LeavesOut order codec row token ↔ ¬EndAdmits order (Token.parse token).operator n row := by
  constructor
  · rintro ⟨m, readsToo, leftOut⟩
    rwa [readsToo.unique reads] at leftOut
  · intro leftOut
    exact ⟨n, reads, leftOut⟩

theorem Reads.ne_error
    {v : Value} {n : Int} (reads : Reads codec v n) (fault : Fault) :
    codec v ≠ .error fault := by
  rcases reads with ⟨w, converted, -⟩
  rw [converted]
  intro impossible
  cases impossible

theorem finds_exhaustedBy
    (judges : ∀ s, Judges codec (.text s))
    {boundary : Value} {first : Int} (isFirst : boundary.integer = .ok first)
    (tokens : List String) :
    Finds (Reaches (IsReadable codec) (LeavesOut order codec first) tokens)
      (exhaustedBy order codec boundary tokens) := by
  induction tokens with
  | nil => exact Or.inr ⟨not_reaches_nil, Or.inl rfl⟩
  | cons token tokens ih =>
    rcases judges (Token.parse token).value with ⟨n, reads⟩ | ⟨fault, uncomparable, failed⟩
    · have readable : IsReadable codec token := ⟨n, reads⟩
      rw [reaches_cons_iff, reads.leavesOut_iff, and_iff_right readable]
      rcases exhaustedBy_cons_of_reads reads isFirst tokens with
        ⟨admitted, same⟩ | ⟨leftOut, stopped⟩
      · rw [same, or_iff_right (not_not_intro admitted)]
        exact ih
      · exact Or.inl ⟨Or.inl leftOut, stopped⟩
    · refine Or.inr ⟨?_, Or.inr ⟨fault, uncomparable, exhaustedBy_cons_of_error failed _ _ _⟩⟩
      rw [reaches_cons_iff]
      rintro (⟨n, reads, -⟩ | ⟨⟨n, reads⟩, -⟩)
      · exact reads.ne_error fault failed
      · exact reads.ne_error fault failed

theorem finds_exhausted
    (order : Order) {mark : LastValue} (judgesLast : Judges codec mark.value)
    (judges : ∀ s, Judges codec (.text s)) (tokens : List String) :
    Finds (Closes order codec tokens mark)
      (exhausted order codec (boundOperator order mark.inclusive) mark.value
        (keptTokens order tokens)) := by
  rcases judgesLast with ⟨last, reads⟩ | ⟨fault, uncomparable, failed⟩
  · have closes : Closes order codec tokens mark ↔
        Reaches (IsReadable codec) (LeavesOut order codec (firstBehind order mark.inclusive last))
          (keptTokens order tokens) := by
      constructor
      · rintro ⟨last', readsToo, reached⟩
        rwa [readsToo.unique reads] at reached
      · intro reached
        exact ⟨last, reads, reached⟩
    rcases reads with ⟨v, converted, isNumber⟩
    rcases exists_closedBound isNumber (boundOperator order mark.inclusive) with
      ⟨boundary, closed, isFirst⟩
    rw [closes, exhausted, converted, ok_bind, closed, ok_bind]
    exact finds_exhaustedBy judges isFirst _
  · refine Or.inr ⟨?_, Or.inr ⟨fault, uncomparable, ?_⟩⟩
    · rintro ⟨last, reads, -⟩
      exact reads.ne_error fault failed
    · rw [exhausted, failed]
      rfl

/-- What cannot be compared counts as something left. -/
theorem result_checkExhausted
    {closes : Prop} (key : String) {operator : Operator} {last : Value} {kept : List String}
    (finds : Finds closes (exhausted order codec operator last kept)) :
    ∃ ended, (checkExhausted order (some codec) key operator last kept).result = .ok ended ∧
      (ended = true ↔ closes) := by
  rw [checkExhausted]
  rcases finds with ⟨closed, same⟩ | ⟨goesOn, same | ⟨fault, uncomparable, same⟩⟩
  · rw [same]
    exact ⟨true, rfl, iff_of_true rfl closed⟩
  · rw [same]
    exact ⟨false, rfl, iff_of_false Bool.false_ne_true goesOn⟩
  · rw [same]
    dsimp only
    rw [if_pos uncomparable]
    exact ⟨false, rfl, iff_of_false Bool.false_ne_true goesOn⟩

end Comparison

/-! ## All sort keys -/

/-- The last value of a sort key is nothing, a text or a whole number, plain or with its marks. -/
def IsPlainLast (last : Value) : Prop :=
  ∃ mark, LastValue.ofValue last = .ok mark ∧ (mark.value = .null ∨ mark.value.isScalar = true)

/-- The scan stops at a sort key: no equality fixes it, and its comparison finds nothing left. -/
def StopsAt (order : Order) (tokens : Tokens) (entry : String × Value) : Prop :=
  (tokensOf tokens entry.1).any isFixed = false ∧
    ∃ mark codec, LastValue.ofValue entry.2 = .ok mark ∧ codecFor? [] entry.1 = some codec ∧
      Closes order codec (tokensOf tokens entry.1) mark

/-- A counter that no equality fixes has no last value. -/
def LacksNumber (tokens : Tokens) (entry : String × Value) : Prop :=
  (tokensOf tokens entry.1).any isFixed = false ∧
    (∃ parameter ∈ counters, parameter.word = entry.1) ∧
    ∃ mark, LastValue.ofValue entry.2 = .ok mark ∧ mark.value = .null

/-- The step past a sort key fails: it is a counter without a last value, or the scan goes on and
the new bound cannot be written. -/
def FailsAt (order : Order) (tokens : Tokens) (entry : String × Value) : Prop :=
  LacksNumber tokens entry ∨ IsOverlongLast tokens entry ∧ ¬StopsAt order tokens entry

/-- The steps come to one that fails, past keys at which the scan does not stop. -/
def Stalls (order : Order) (tokens : Tokens) (last : Query) : Prop :=
  Reaches (fun entry => ¬StopsAt order tokens entry) (FailsAt order tokens) last

section Steps

variable {order : Order} {tokens : Tokens}

theorem stopsAt_congr
    {other : Tokens} {entry : String × Value}
    (same : tokensOf other entry.1 = tokensOf tokens entry.1) :
    StopsAt order other entry ↔ StopsAt order tokens entry := by
  rw [StopsAt, StopsAt, same]

/-- The check of a counter without a last value fails, and it is the only one that does. -/
theorem result_checkKey_cases
    (order : Order) (tokens : Tokens) (key : String) {mark : LastValue}
    (plain : mark.value = .null ∨ mark.value.isScalar = true) :
    ((∃ parameter ∈ counters, parameter.word = key) ∧ mark.value = .null ∧
        (checkKey order [] tokens key mark).result = .error .mistyped) ∨
      (¬((∃ parameter ∈ counters, parameter.word = key) ∧ mark.value = .null) ∧
        ∃ ended, (checkKey order [] tokens key mark).result = .ok ended ∧
          (ended = true ↔ ∃ codec, codecFor? [] key = some codec ∧
            Closes order codec (tokensOf tokens key) mark)) := by
  by_cases lacks : (∃ parameter ∈ counters, parameter.word = key) ∧ mark.value = .null
  · rcases lacks with ⟨⟨parameter, counter, isKey⟩, nothing⟩
    have found := codecFor?_of_mem_counters counter
    rw [isKey] at found
    refine Or.inl ⟨⟨parameter, counter, isKey⟩, nothing, ?_⟩
    rw [checkKey, found, nothing]
    rfl
  · refine Or.inr ⟨lacks, ?_⟩
    rw [checkKey]
    cases found : codecFor? [] key with
    | none =>
      refine ⟨false, rfl, iff_of_false Bool.false_ne_true ?_⟩
      rintro ⟨codec, impossible, -⟩
      cases impossible
    | some codec =>
      have judgesLast : Judges codec mark.value := by
        rcases codecFor?_eq_some_iff.mp found with ⟨parameter, isKey, isCodec⟩
        apply judges_of_codecOf? isCodec
        intro counter
        apply plain.resolve_left
        intro nothing
        exact lacks ⟨⟨parameter, counter, isKey⟩, nothing⟩
      rcases result_checkExhausted key
          (finds_exhausted order judgesLast (judges_text found) (tokensOf tokens key)) with
        ⟨ended, checked, decides⟩
      refine ⟨ended, checked, ?_⟩
      rw [decides]
      simp only [Option.some.injEq, exists_eq_left']

theorem outcome_of_lacksNumber
    {entry : String × Value} (lacks : LacksNumber tokens entry) :
    outcome order [] tokens entry = .error .mistyped := by
  rcases entry with ⟨key, last⟩
  rcases lacks with ⟨free, counter, mark, read, nothing⟩
  rcases result_checkKey_cases order tokens key (Or.inl nothing) with
    ⟨-, -, failed⟩ | ⟨comparable, -⟩
  · rw [outcome_of_free read free, failed]
    rfl
  · exact absurd ⟨counter, nothing⟩ comparable

/-- A step past any other key stops the scan where the comparison finds nothing left. -/
theorem stepsTo_of_plain
    {entry : String × Value} (plain : IsPlainLast entry.2) (numbered : ¬LacksNumber tokens entry) :
    StepsTo (StopsAt order tokens entry) (IsOverlongLast tokens entry)
      (outcome order [] tokens entry) := by
  rcases entry with ⟨key, last⟩
  rcases plain with ⟨mark, read, plain⟩
  cases fixed : (tokensOf tokens key).any isFixed with
  | true => exact stepsTo_of_fixed read fixed fun stops => stops.1
  | false =>
    rcases result_checkKey_cases order tokens key plain with
      ⟨counter, nothing, -⟩ | ⟨-, ended, checked, decides⟩
    · exact absurd ⟨fixed, counter, mark, read, nothing⟩ numbered
    · apply stepsTo_of_checked read fixed checked
      rw [decides]
      constructor
      · rintro ⟨codec, found, closes⟩
        exact ⟨fixed, mark, codec, read, found, closes⟩
      · rintro ⟨-, mark', codec, read', found, closes⟩
        cases read.symm.trans read'
        exact ⟨codec, found, closes⟩

theorem outcome_eq_error_iff {entry : String × Value} (plain : IsPlainLast entry.2) :
    (∃ fault, outcome order [] tokens entry = .error fault) ↔ FailsAt order tokens entry := by
  by_cases lacks : LacksNumber tokens entry
  · exact iff_of_true ⟨_, outcome_of_lacksNumber lacks⟩ (Or.inl lacks)
  · rw [FailsAt, or_iff_right lacks]
    simp only [(stepsTo_of_plain plain lacks).eq_error_iff, exists_eq_left]

theorem outcome_eq_true_iff {entry : String × Value} (plain : IsPlainLast entry.2) :
    outcome order [] tokens entry = .ok true ↔
      ¬StopsAt order tokens entry ∧ ¬FailsAt order tokens entry := by
  by_cases lacks : LacksNumber tokens entry
  · rw [outcome_of_lacksNumber lacks]
    exact iff_of_false nofun fun both => both.2 (Or.inl lacks)
  · rw [(stepsTo_of_plain plain lacks).eq_true_iff, FailsAt, or_iff_right lacks]
    constructor
    · rintro ⟨written, goesOn⟩
      exact ⟨goesOn, fun fails => written fails.1⟩
    · rintro ⟨goesOn, succeeds⟩
      exact ⟨fun overlong => succeeds ⟨overlong, goesOn⟩, goesOn⟩

/-- The steps past all keys have a fault just where they stall. -/
theorem stalls_iff
    (order : Order) (distinct : (keys tokens).Nodup)
    {last : Query} (distinctLast : (last.map Prod.fst).Nodup)
    (plain : ∀ entry ∈ last, IsPlainLast entry.2) :
    Stalls order tokens last ↔
      ∃ fault, (advance order [] tokens last).result = .error fault := by
  simp only [advance_eq_error_iff distinct distinctLast]
  rw [Stalls, ← reaches_exists_iff, ← @reaches_iff_first _ fun entry => ¬StopsAt order tokens entry]
  exact reaches_congr (fun entry member => (outcome_eq_true_iff (plain entry member)).symm)
    fun entry member => (outcome_eq_error_iff (plain entry member)).symm

end Steps

/-! ## Links -/

/-- A link has an answer, be it that there is none, or it is refused for its order. -/
def AnswersOrRefuses (order : Value) (query last : Query) : Prop :=
  (∃ link, (nextLink order query last []).result = .ok link) ∨
    ((∀ direction : Order, order.asText? ≠ some direction.word) ∧
      (nextLink order query last []).result = .error (.invalidParameter Parameter.order.word))

/-- An order that names no direction is refused before anything else is looked at. -/
theorem result_nextLink_of_no_direction
    {order : Value} (unnamed : ∀ direction : Order, order.asText? ≠ some direction.word)
    (query last : Query) (codecs : List (String × Encoder)) :
    (nextLink order query last codecs).result =
      .error (.invalidParameter Parameter.order.word) := by
  have refused : Order.ofValue order = .error (.invalidParameter Parameter.order.word) := by
    cases named : Order.ofValue order with
    | ok direction => exact absurd (Order.ofValue_eq_ok_iff.mp named) (unnamed direction)
    | error fault =>
      rw [Order.ofValue] at named
      split at named
      · cases named
      · exact named.symm
  rw [nextLink_eq, Traced.result_bind, Traced.result_lift, refused]
  rfl

/-- Where the order names a direction, there is an answer if all values of the query can be written
and the steps do not stall. -/
theorem exists_answer_iff
    {order : Value} {direction : Order} (directed : Order.ofValue order = .ok direction)
    {query last : Query}
    (distinct : (query.map Prod.fst).Nodup) (distinctLast : (last.map Prod.fst).Nodup)
    (given : ∀ entry ∈ query, entry.2.isGiven = true)
    (plain : ∀ entry ∈ last, IsPlainLast entry.2) :
    (∃ link, (nextLink order query last []).result = .ok link) ↔
      (∀ entry ∈ query, entry.2.IsShowable) ∧
        ¬Stalls direction (query.map fun entry => (entry.1, entry.2.texts)) last := by
  by_cases showable : ∀ entry ∈ query, entry.2.IsShowable
  case neg =>
    apply iff_of_false _ fun both => showable both.1
    rintro ⟨link, linked⟩
    rw [nextLink_eq, Traced.result_bind, Traced.result_lift, directed, ok_bind, Traced.result_bind,
      Traced.result_lift] at linked
    rcases bind_eq_ok.mp linked with ⟨tokens, read, -⟩
    exact showable (Query.forall_isShowable_of_texts given read)
  have read := Query.texts_of_isShowable given showable
  rw [and_iff_right showable, stalls_iff direction (Query.nodup_keys_of_texts distinct read)
    distinctLast plain]
  cases advanced : (advance direction []
      (query.map fun entry => (entry.1, entry.2.texts)) last).result with
  | error fault =>
    rw [result_nextLink_of_error directed read advanced]
    exact iff_of_false nofun (not_not_intro ⟨fault, rfl⟩)
  | ok next =>
    rw [result_nextLink directed read advanced]
    exact iff_of_true ⟨_, rfl⟩ nofun

/--
Values that cannot be compared leave the link standing.  Whatever the last
values are, nothing included, there is an answer or the order is refused, unless
the order names a direction and one of three things keeps the link from being
made: a value of the query has too many digits to be written, or the steps come
to a last value that has too many, or to a counter without one.
-/
theorem answersOrRefuses_iff
    {query last : Query}
    (distinct : (query.map Prod.fst).Nodup) (distinctLast : (last.map Prod.fst).Nodup)
    (given : ∀ entry ∈ query, entry.2.isGiven = true)
    (plain : ∀ entry ∈ last, IsPlainLast entry.2) (order : Value) :
    AnswersOrRefuses order query last ↔
      ∀ direction : Order, order.asText? = some direction.word →
        (∀ entry ∈ query, entry.2.IsShowable) ∧
          ¬Stalls direction (query.map fun entry => (entry.1, entry.2.texts)) last := by
  by_cases named : ∃ direction : Order, order.asText? = some direction.word
  case neg =>
    rw [not_exists] at named
    apply iff_of_true
    · exact Or.inr ⟨named, result_nextLink_of_no_direction named query last []⟩
    · intro direction impossible
      exact absurd impossible (named direction)
  rcases named with ⟨direction, named⟩
  have directed := Order.ofValue_eq_ok_iff.mpr named
  have answers : AnswersOrRefuses order query last ↔
      ∃ link, (nextLink order query last []).result = .ok link :=
    or_iff_left fun refused => refused.1 direction named
  have only {holds : Order → Prop} :
      (∀ other : Order, order.asText? = some other.word → holds other) ↔ holds direction := by
    constructor
    · intro all
      exact all direction named
    · intro holds other namedToo
      cases directed.symm.trans (Order.ofValue_eq_ok_iff.mpr namedToo)
      exact holds
  rw [answers, only]
  exact exists_answer_iff directed distinct distinctLast given plain

/-- Neither an id nor a truth value nor a token that is no number keeps a link from being made, and
the node needs no last value where the query names the node. -/
theorem answersOrRefuses_uncomparable :
    let query : Query :=
      [("block.number", .list [.text "lt:9", .text "ne:x"]), ("node.id", .text "3")]
    let last : Query :=
      [("account.id", .null), ("block.number", .cursor (.bool true) false true), ("node.id", .null)]
    (∀ entry ∈ query, entry.2.isGiven = true) ∧ (∀ entry ∈ last, IsPlainLast entry.2) ∧
      AnswersOrRefuses (.text "asc") query last := by
  intro query last
  have given : ∀ entry ∈ query, entry.2.isGiven = true := by decide
  have plain : ∀ entry ∈ last, IsPlainLast entry.2 := by
    simp only [last, List.forall_mem_cons]
    refine ⟨⟨_, rfl, Or.inl rfl⟩, ⟨_, rfl, Or.inr rfl⟩, ⟨_, rfl, Or.inl rfl⟩, ?_⟩
    intro entry impossible
    cases impossible
  refine ⟨given, plain, ?_⟩
  apply (answersOrRefuses_iff (by decide) (by decide) given plain (.text "asc")).mpr
  rintro direction -
  refine ⟨?_, ?_⟩
  · rw [List.forall_mem_cons, List.forall_mem_singleton]
    exact ⟨(Value.isWritable_iff _).mp rfl, Value.isShowable_text _⟩
  · rintro ⟨before, entry, after, split, fails, -⟩
    have member : entry ∈ last := by
      rw [split]
      simp
    simp only [last, List.mem_cons, List.not_mem_nil, or_false] at member
    rcases fails with ⟨free, counter, mark, isMark, nothing⟩ | ⟨⟨-, mark, isMark, overlong⟩, -⟩
    · rcases member with rfl | rfl | rfl
      · exact absurd counter (by decide)
      · cases isMark
        cases nothing
      · exact absurd free (by decide)
    · rcases member with rfl | rfl | rfl <;> cases isMark
      · exact overlong Value.isShowable_null
      · exact overlong (Value.isShowable_bool true)
      · exact overlong Value.isShowable_null

/-- If the last block of the first page has no number, there is no answer. -/
theorem answersOrRefuses_refuted :
    let last : Query := [("block.number", .null)]
    (∀ entry ∈ last, IsPlainLast entry.2) ∧
      (nextLink (.text "asc") [] last []).result = .error .mistyped ∧
      ¬AnswersOrRefuses (.text "asc") [] last := by
  intro last
  have failed : (nextLink (.text "asc") [] last []).result = .error .mistyped := rfl
  refine ⟨?_, failed, ?_⟩
  · intro entry member
    rw [List.mem_singleton.mp member]
    exact ⟨⟨.null, false⟩, rfl, Or.inl rfl⟩
  · rintro (⟨link, linked⟩ | ⟨unnamed, -⟩)
    · rw [failed] at linked
      cases linked
    · exact unnamed .asc rfl

end LedgerQuery.Paging
