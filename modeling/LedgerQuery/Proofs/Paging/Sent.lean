import LedgerQuery.Proofs.Field.Timestamp
import LedgerQuery.Proofs.Paging.Accepted
import LedgerQuery.Proofs.Paging.Content
import LedgerQuery.Proofs.Paging.Verdict

/-!
# Bounds that are sent

A sort key is compared by the number that its codec finds in the last value, but
the link holds the text of the last value.  A text is its own text, so what is
compared is what is sent.  The number of a counter is found again in its digits,
and ids and slots are read from the text in the first place.  A timestamp is
different: a number counts nanoseconds, and its digits count seconds.
-/

namespace LedgerQuery

open Numeral

namespace Paging

open Link (Tokens keys compact)

/-! ## Codecs -/

/-- A last value that is a text or a whole number. -/
def IsTextOrNumber (v : Value) : Prop :=
  (∃ s, v = .text s) ∨ ∃ n, v = .int n

/-- A number that the text of a last value keeps: a timestamp keeps none but zero, and a counter
those that are not too long to be read. -/
def KeepsNumber (parameter : Parameter) (v : Value) : Prop :=
  ∀ n, v = .int n →
    (parameter = .timestamp → n = 0) ∧
      (parameter ∈ counters → (decimal n.natAbs).length ≤ digitLimit)

/-- Only zero is as many seconds as nanoseconds. -/
theorem timestampCodec_writeInt_eq_iff (n : Int) :
    timestampCodec (.text (writeInt n)) = timestampCodec (.int n) ↔ n = 0 := by
  have number : timestampCodec (.int n) = .ok (.int n) := rfl
  have written := timestampCodec.eq_def (.text (writeInt n))
  dsimp only at written
  rw [Value.written_text, ok_bind, Field.timestampOfText?_writeInt, Field.nanosPerSecond] at written
  rw [number, written]
  by_cases seconds : 0 ≤ n ∧ n < 10 ^ 10
  · rw [if_pos seconds, Except.ok.injEq, Value.int.injEq]
    omega
  · rw [if_neg seconds]
    apply iff_of_false
    · intro impossible
      cases impossible
    · rintro rfl
      exact seconds (by decide)

theorem integerCodec_writeInt_eq_iff (n : Int) :
    integerCodec (.text (writeInt n)) = integerCodec (.int n) ↔
      (decimal n.natAbs).length ≤ digitLimit := by
  have number : integerCodec (.int n) = .ok (.int n) := rfl
  have written : integerCodec (.text (writeInt n)) =
      ((integer (writeInt n)).mapError .unreadable).map .int := rfl
  rw [← integer_writeInt_eq_ok_iff, number, written, map_eq_ok]
  simp [mapError_eq_ok]

/-- What a codec finds in the text of a last value is what it finds in the last value itself, unless
the number is lost in the text. -/
theorem codec_plain_eq_iff
    {parameter : Parameter} {codec : Encoder} (isCodec : codecOf? parameter = some codec)
    {v : Value} (given : IsTextOrNumber v) (showable : v.IsShowable) :
    codec (.text v.plain) = codec v ↔ KeepsNumber parameter v := by
  rcases given with ⟨s, rfl⟩ | ⟨n, rfl⟩
  · apply iff_of_true rfl
    intro n impossible
    cases impossible
  · have written : (Value.int n).plain = writeInt n := rfl
    have keeps : KeepsNumber parameter (.int n) ↔
        (parameter = .timestamp → n = 0) ∧
          (parameter ∈ counters → (decimal n.natAbs).length ≤ digitLimit) := by
      simp [KeepsNumber]
    rw [keeps]
    cases parameter with
    | accountId | contractId | scheduleId | spenderId | tokenId =>
      cases isCodec
      exact iff_of_true (entityCodec_plain showable) (by simp [counters])
    | slot =>
      cases isCodec
      exact iff_of_true (slotCodec_plain showable) (by simp [counters])
    | blockNumber | nodeId | serialNumber =>
      cases isCodec
      rw [written, integerCodec_writeInt_eq_iff]
      simp [counters]
    | timestamp =>
      cases isCodec
      rw [written, timestampCodec_writeInt_eq_iff]
      simp [counters]
    | accountBalance | accountPublicKey | limit | order => cases isCodec

/-! ## Links -/

/--
The bound that is checked is the bound that is sent.  Behind the tokens kept of
a free sort key the link holds one new bound, and the codec of the key finds in
its value what it finds in the last value, unless the number of the last value
is lost in its text.
-/
theorem codec_newBound_eq_iff
    {order : Value} {query last : Query} {codecs : List (String × Encoder)} {link : String}
    (distinct : (query.map Prod.fst).Nodup) (distinctLast : (last.map Prod.fst).Nodup)
    (linked : (nextLink order query last codecs).result = .ok (some link))
    {parameter : Parameter} {codec : Encoder} (isCodec : codecOf? parameter = some codec)
    {value : Value} (member : (parameter.word, value) ∈ last)
    {mark : LastValue} (isMark : LastValue.ofValue value = .ok mark)
    (given : IsTextOrNumber mark.value)
    {tokens : Tokens} (read : query.texts = .ok tokens)
    (free : (tokensOf tokens parameter.word).any isFixed = false) :
    ∃ direction, Order.ofValue order = .ok direction ∧
      tokensOf (Link.read link) parameter.word =
        keptTokens direction (tokensOf tokens parameter.word) ++ [newBound direction mark] ∧
      (Token.parse (newBound direction mark)).operator = boundOperator direction mark.inclusive ∧
      (codec (.text (Token.parse (newBound direction mark)).value) = codec mark.value ↔
        KeepsNumber parameter mark.value) := by
  rcases exists_advance_of_nextLink linked with
    ⟨direction, tokens', next, directed, read', advanced, written⟩
  cases read.symm.trans read'
  have distinctTokens := Query.nodup_keys_of_texts distinct read
  have distinctNext := nodup_keys_of_advance distinctTokens advanced
  have content : tokensOf (Link.read link) parameter.word = tokensOf next parameter.word := by
    rw [read_of_linkOf distinctNext written, tokensOf_compact distinctNext]
  have moved := moved_of_advance distinctTokens advanced parameter.word
  rw [← content] at moved
  generalize tokensOf (Link.read link) parameter.word = sent at moved
  refine ⟨direction, directed, ?_⟩
  rw [newBound, parse_boundText]
  cases moved with
  | kept untouched =>
    rcases untouched with absent | fixed
    · exact absurd (List.mem_map_of_mem member) absent
    · rw [free] at fixed
      cases fixed
  | bounded _ member' isMark' showable =>
    cases List.inj_on_of_nodup_map distinctLast member member' rfl
    cases isMark.symm.trans isMark'
    exact ⟨rfl, rfl, codec_plain_eq_iff isCodec given showable⟩

/-- The bound behind the fifth block is compared as it is sent. -/
theorem codec_newBound_eq_block :
    let query : Query := [("block.number", .list [.text "gte:3", .text "lt:9"])]
    let last : Query := [("block.number", .int 5)]
    let link := "?block.number=lt:9&block.number=gt:5"
    (nextLink (.text "asc") query last []).result = .ok (some link) ∧
      tokensOf (Link.read link) "block.number" = ["lt:9", "gt:5"] ∧
      integerCodec (.text (Token.parse "gt:5").value) = integerCodec (.int 5) := by
  intro query last link
  have linked : (nextLink (.text "asc") query last []).result = .ok (some link) := by
    decide +kernel
  have keeps : KeepsNumber .blockNumber (.int 5) := by
    rintro n ⟨⟩
    exact ⟨by decide, fun _ => by decide⟩
  have isCodec : codecOf? .blockNumber = some integerCodec := rfl
  rcases codec_newBound_eq_iff (by decide) (by decide) linked isCodec List.mem_cons_self rfl
      (Or.inr ⟨5, rfl⟩) rfl rfl with
    ⟨direction, directed, content, -, found⟩
  cases directed
  exact ⟨linked, content, found.mpr keeps⟩

/-- Five nanoseconds are sent as five seconds.  Nothing is later than these and earlier than three
seconds, as the same bound shows when it is given as a text, but the check compares five nanoseconds
with three seconds. -/
theorem codec_newBound_refuted :
    let query : Query := [("timestamp", .text "lt:3")]
    let link := "?timestamp=lt:3&timestamp=gt:5"
    (nextLink (.text "asc") query [("timestamp", .int 5)] []).result = .ok (some link) ∧
      tokensOf (Link.read link) "timestamp" = ["lt:3", "gt:5"] ∧
      timestampCodec (.int 5) = .ok (.int 5) ∧
      timestampCodec (.text (Token.parse "gt:5").value) = .ok (.int 5000000000) ∧
      (nextLink (.text "asc") query [("timestamp", .text "5")] []).result = .ok none := by
  exact ⟨by decide +kernel, rfl, rfl, rfl, rfl⟩

end Paging

end LedgerQuery
