import LedgerQuery.Proofs.Paging.Advance
import LedgerQuery.Proofs.Request.Validate
import Mathlib

/-!
# Requests for the next page

A link made from an accepted request asks for the same parameters with one new
bound on each sort key that no equality fixes.  The new bounds are accepted like
the last values that they are made from, and the tokens kept are accepted as
before, so that all that may go wrong is the number of tokens: making the link
takes no notice of how often a parameter may be repeated.

The main statement says which links are accepted requests again.
-/

namespace LedgerQuery.Paging

open Link (Tokens keys compact)
open Request (IsAccepted acceptsToken validate validatorFor? validatorOf)

/-! ## What a link changes -/

/-- What becomes of the tokens of a key when a query is moved past some last values. -/
inductive Moved (order : Order) (last : Query) (key : String) (tokens : List String) :
    List String → Prop where
  | kept (untouched : key ∉ last.map Prod.fst ∨ tokens.any isFixed = true) :
    Moved order last key tokens tokens
  | bounded (free : tokens.any isFixed = false)
    {value : Value} (member : (key, value) ∈ last)
    {mark : LastValue} (read : LastValue.ofValue value = .ok mark)
    (showable : mark.value.IsShowable) :
    Moved order last key tokens
      (keptTokens order tokens ++ [boundText (boundOperator order mark.inclusive) mark.value])

theorem Moved.cons
    {order : Order} {entry : String × Value} {last : Query} {key : String}
    {tokens middle final : List String}
    (first : Moved order [entry] key tokens middle) (others : Moved order last key middle final) :
    Moved order (entry :: last) key tokens final := by
  cases first with
  | kept untouched =>
    cases others with
    | kept untouchedLater =>
      apply Moved.kept
      rcases untouched with absent | fixed
      · rcases untouchedLater with absentLater | fixed
        · left
          rw [List.map_cons, List.mem_cons, not_or]
          exact ⟨fun same => absent (List.mem_singleton.mpr same), absentLater⟩
        · exact Or.inr fixed
      · exact Or.inr fixed
    | bounded free member read showable =>
      exact .bounded free (List.mem_cons_of_mem entry member) read showable
  | bounded free member read showable =>
    cases others with
    | kept _ =>
      rw [List.mem_singleton] at member
      exact .bounded free (member ▸ List.mem_cons_self) read showable
    | bounded _ memberLater readLater showableLater =>
      -- The bound of the first step does not outlast the second one.
      rw [keptTokens_append_boundText, keptTokens_keptTokens]
      exact .bounded free (List.mem_cons_of_mem entry memberLater) readLater showableLater

section Steps

variable {order : Order} {codecs : List (String × Encoder)} {tokens : Tokens}

theorem moved_of_advanceKey
    (distinct : (keys tokens).Nodup)
    {key : String} {last : Value} {next : Tokens}
    (advanced : (advanceKey order codecs tokens key last).result = .ok (some next))
    (name : String) :
    Moved order [(key, last)] name (tokensOf tokens name) (tokensOf next name) := by
  by_cases same : key = name
  · subst same
    rcases advanceKey_eq_some advanced with ⟨fixed, rfl⟩ | ⟨free, mark, read, -, showable, rfl⟩
    · exact .kept (Or.inr fixed)
    · rw [tokensOf_rebound distinct]
      exact .bounded free List.mem_cons_self read showable
  · rw [tokensOf_of_advanceKey_of_ne distinct advanced same]
    exact .kept (Or.inl fun member => same (List.mem_singleton.mp member).symm)

theorem moved_of_advance
    (distinct : (keys tokens).Nodup)
    {last : Query} {final : Tokens}
    (advanced : (advance order codecs tokens last).result = .ok (some final))
    (name : String) :
    Moved order last name (tokensOf tokens name) (tokensOf final name) := by
  induction last generalizing tokens with
  | nil =>
    cases advanced
    exact .kept (Or.inl List.not_mem_nil)
  | cons entry last ih =>
    rcases advance_eq_some_cons advanced with ⟨next, step, advanced⟩
    exact (moved_of_advanceKey distinct step name).cons
      (ih (nodup_keys_of_advanceKey distinct step) advanced)

end Steps

/-! ## The tokens of a link by key -/

theorem tokensOf_of_mem
    {tokens : Tokens} (distinct : (keys tokens).Nodup)
    {key : String} {values : List String} (member : (key, values) ∈ tokens) :
    tokensOf tokens key = values := by
  have known : key ∈ keys tokens := List.mem_map_of_mem member
  rcases exists_split_of_mem_keys distinct known with
    ⟨before, values', after, rfl, absentBefore, absentAfter⟩
  rw [tokensOf_split absentBefore]
  rcases List.mem_append.mp member with inside | inside
  · exact absurd (List.mem_map_of_mem inside) absentBefore
  · rcases List.mem_cons.mp inside with same | inside
    · cases same
      rfl
    · exact absurd (List.mem_map_of_mem inside) absentAfter

theorem mem_of_tokensOf_ne_nil
    {tokens : Tokens} (distinct : (keys tokens).Nodup)
    {key : String} (someTokens : tokensOf tokens key ≠ []) :
    (key, tokensOf tokens key) ∈ tokens := by
  rcases exists_split_of_mem_keys distinct (mem_keys_of_tokensOf_ne_nil someTokens) with
    ⟨before, values, after, rfl, absent, -⟩
  rw [tokensOf_split absent]
  exact List.mem_append_right before List.mem_cons_self

/-- A link asks for the keys that have tokens. -/
theorem forall_mem_compact_iff
    {tokens : Tokens} (distinct : (keys tokens).Nodup)
    {holds : String → List String → Prop} :
    (∀ entry ∈ compact tokens, holds entry.1 entry.2) ↔
      ∀ key, tokensOf tokens key ≠ [] → holds key (tokensOf tokens key) := by
  constructor
  · intro all key someTokens
    apply all (key, tokensOf tokens key)
    apply List.mem_filter.mpr
    exact ⟨mem_of_tokensOf_ne_nil distinct someTokens, by simpa using someTokens⟩
  · rintro all ⟨key, values⟩ member
    rcases List.mem_filter.mp member with ⟨inside, someValues⟩
    have same := tokensOf_of_mem distinct inside
    have holdsKey := all key (by simpa [same] using someValues)
    rwa [same] at holdsKey

/-! ## Accepted bounds -/

theorem plain_of_asText? {v : Value} {s : String} (isText : v.asText? = some s) : v.plain = s := by
  cases v <;> cases isText <;> rfl

/-- A sort key may be given with any operator. -/
theorem validatorOf_sortKey
    {parameter : Parameter} (sortKey : (codecOf? parameter).isSome = true)
    (operator other : Operator) (s : String) :
    validatorOf parameter operator s = validatorOf parameter other s := by
  cases parameter <;> first | rfl | cases sortKey

/-- The last value of a sort key is a text that the validator of the key accepts. -/
def IsAcceptedMark (key : String) (last : Value) : Prop :=
  ∃ parameter mark s, Parameter.ofWord? key = some parameter ∧
    (codecOf? parameter).isSome = true ∧ LastValue.ofValue last = .ok mark ∧
    mark.value.asText? = some s ∧ validatorOf parameter .eq s = true

theorem IsAcceptedMark.acceptsToken_boundToken
    {key : String} {last : Value} (acceptedMark : IsAcceptedMark key last)
    {mark : LastValue} (read : LastValue.ofValue last = .ok mark)
    {validator : Request.Validator} (judge : validatorFor? [] key = some validator)
    (operator : Operator) :
    acceptsToken validator (boundText operator mark.value) = true := by
  rcases acceptedMark with ⟨parameter, mark', s, known, sortKey, read', isText, valid⟩
  rw [read] at read'
  cases read'
  have isOwn : validatorFor? [] key = (Parameter.ofWord? key).map validatorOf := rfl
  rw [isOwn, known] at judge
  cases judge
  rw [acceptsToken, parse_boundText, plain_of_asText? isText]
  exact (validatorOf_sortKey sortKey operator .eq s).trans valid

section Links

variable {config : Config} {accepted : List String}

/-- Beside a new bound there must be room for the tokens kept. -/
theorem isAccepted_bounded_iff
    {key : String} (known : key ∈ accepted)
    {tokens : List String}
    (valid : ∀ validator, validatorFor? [] key = some validator →
      ∀ s ∈ tokens, acceptsToken validator s = true)
    {last : Value} (acceptedMark : IsAcceptedMark key last)
    {mark : LastValue} (read : LastValue.ofValue last = .ok mark)
    (order : Order) (operator : Operator) :
    IsAccepted config accepted [] key
        (keptTokens order tokens ++ [boundText operator mark.value]) ↔
      ((keptTokens order tokens).length : Int) < config.maxRepeated := by
  have count : ((keptTokens order tokens ++ [boundText operator mark.value]).length : Int) =
      (keptTokens order tokens).length + 1 := by simp
  constructor
  · intro isAccepted
    have few := isAccepted.few
    omega
  · intro room
    refine ⟨known, by omega, ?_⟩
    intro validator judge s member
    rcases List.mem_append.mp member with inside | isBound
    · exact valid validator judge s (List.mem_filter.mp inside).1
    · rw [List.mem_singleton.mp isBound]
      exact acceptedMark.acceptsToken_boundToken read judge operator

/-- A link passes where the tokens of each of its keys do. -/
theorem result_validate_queryOfLink_eq_ok_iff
    {final : Tokens} (distinct : (keys final).Nodup)
    {link : String} (written : linkOf final = some link) :
    (validate config accepted [] (queryOfLink link)).result = .ok () ↔
      ∀ key, tokensOf final key ≠ [] →
        IsAccepted config accepted [] key (tokensOf final key) := by
  rw [Request.result_validate_eq_ok_iff, texts_queryOfLink distinct written,
    ← forall_mem_compact_iff distinct]
  constructor
  · rintro ⟨_, ⟨⟩, all⟩
    exact all
  · intro all
    exact ⟨_, rfl, all⟩

/--
The link made from an accepted request, with last values that the validators of
the sort keys accept, is an accepted request again exactly when every sort key
without an equality has room for the new bound beside the tokens that it keeps.
-/
theorem validate_queryOfLink_iff
    {order : Value} {direction : Order} (directed : Order.ofValue order = .ok direction)
    {query : Query} {tokens : Tokens}
    (distinct : (query.map Prod.fst).Nodup) (read : query.texts = .ok tokens)
    (passes : (validate config accepted [] query).result = .ok ())
    {last : Query}
    (acceptedLast : ∀ entry ∈ last, entry.1 ∈ accepted ∧ IsAcceptedMark entry.1 entry.2)
    {link : String} (linked : (nextLink order query last []).result = .ok (some link)) :
    (validate config accepted [] (queryOfLink link)).result = .ok () ↔
      ∀ key ∈ last.map Prod.fst, (tokensOf tokens key).any isFixed = false →
        ((keptTokens direction (tokensOf tokens key)).length : Int) < config.maxRepeated := by
  rcases exists_advance_of_nextLink linked with
    ⟨direction', tokens', final, directed', read', advanced, written⟩
  cases directed.symm.trans directed'
  cases read.symm.trans read'
  rcases Request.result_validate_eq_ok_iff.mp passes with ⟨tokens', read'', allAccepted⟩
  cases read.symm.trans read''
  have tokensDistinct := Query.nodup_keys_of_texts distinct read
  have finalDistinct := nodup_keys_of_advance tokensDistinct advanced
  have tokensAccepted (key : String) (someTokens : tokensOf tokens key ≠ []) :
      IsAccepted config accepted [] key (tokensOf tokens key) :=
    allAccepted _ (mem_of_tokensOf_ne_nil tokensDistinct someTokens)
  have tokensValid (key : String) (validator : Request.Validator)
      (judge : validatorFor? [] key = some validator) :
      ∀ s ∈ tokensOf tokens key, acceptsToken validator s = true := by
    intro s member
    exact (tokensAccepted key (List.ne_nil_of_mem member)).valid validator judge s member
  rw [result_validate_queryOfLink_eq_ok_iff finalDistinct written]
  constructor
  · intro all key member free
    have isAccepted := all key
    have moved := moved_of_advance tokensDistinct advanced key
    generalize tokensOf final key = after at isAccepted moved
    cases moved with
    | kept untouched =>
      rcases untouched with absent | fixed
      · exact absurd member absent
      · exact absurd fixed (Bool.eq_false_iff.mp free)
    | bounded _ inLast markRead _ =>
      rcases acceptedLast _ inLast with ⟨known, acceptedMark⟩
      exact (isAccepted_bounded_iff known (tokensValid key) acceptedMark markRead direction _).mp
        (isAccepted (by simp))
  · intro room key someTokens
    have moved := moved_of_advance tokensDistinct advanced key
    generalize tokensOf final key = after at someTokens moved ⊢
    cases moved with
    | kept _ => exact tokensAccepted key someTokens
    | bounded free inLast markRead _ =>
      rcases acceptedLast _ inLast with ⟨known, acceptedMark⟩
      exact (isAccepted_bounded_iff known (tokensValid key) acceptedMark markRead direction _).mpr
        (room key (List.mem_map_of_mem inLast) free)

theorem isAcceptedMark_timestamp : IsAcceptedMark "timestamp" (.text "3") :=
  ⟨.timestamp, ⟨.text "3", false⟩, "3", Parameter.ofWord?_word .timestamp, rfl, rfl, rfl,
    by decide +kernel⟩

/-- Under the standard limits a range of timestamps may be fetched page by page. -/
theorem validate_queryOfLink_timestamp :
    let query : Query := [("timestamp", .text "lt:5"), ("limit", .text "2")]
    let last : Query := [("timestamp", .text "3")]
    let link := "?timestamp=lt:5&timestamp=gt:3&limit=2"
    (validate .standard ["limit", "timestamp"] [] query).result = .ok () ∧
      (nextLink (.text "asc") query last []).result = .ok (some link) ∧
      (validate .standard ["limit", "timestamp"] [] (queryOfLink link)).result = .ok () := by
  intro query last link
  have passes : (validate .standard ["limit", "timestamp"] [] query).result = .ok () := by
    cbv
  have linked : (nextLink (.text "asc") query last []).result = .ok (some link) := rfl
  have directed : Order.ofValue (.text "asc") = .ok .asc := rfl
  have distinct : (query.map Prod.fst).Nodup := by decide
  have read : query.texts = .ok [("timestamp", ["lt:5"]), ("limit", ["2"])] := rfl
  have acceptedLast : ∀ entry ∈ last, entry.1 ∈ ["limit", "timestamp"] ∧
      IsAcceptedMark entry.1 entry.2 := by
    intro entry member
    rw [List.mem_singleton.mp member]
    exact ⟨by decide, isAcceptedMark_timestamp⟩
  refine ⟨passes, linked, ?_⟩
  apply (validate_queryOfLink_iff directed distinct read passes acceptedLast linked).mpr
  decide +kernel

/-- A bound above may be given once; the link needs a second one below. -/
theorem validate_queryOfLink_refused :
    let config : Config := { maxRepeated := 1 }
    let query : Query := [("timestamp", .text "lt:5")]
    let last : Query := [("timestamp", .text "3")]
    let link := "?timestamp=lt:5&timestamp=gt:3"
    (validate config ["timestamp"] [] query).result = .ok () ∧
      (∀ entry ∈ last, entry.1 ∈ ["timestamp"] ∧ IsAcceptedMark entry.1 entry.2) ∧
      (nextLink (.text "asc") query last []).result = .ok (some link) ∧
      (validate config ["timestamp"] [] (queryOfLink link)).result =
        .error (.argument (.problems [.tooMany "timestamp" 2 1])) := by
  intro config query last link
  refine ⟨by cbv, ?_, rfl, by decide +kernel⟩
  intro entry member
  rw [List.mem_singleton.mp member]
  exact ⟨List.mem_singleton.mpr rfl, isAcceptedMark_timestamp⟩

end Links

end LedgerQuery.Paging
