import LedgerQuery.Proofs.Paging.Bound
import LedgerQuery.Proofs.Paging.Scan

/-!
# Fetching all pages

A client fetches a page of the rows that its query admits, has the link to the
next page made from the last of them, and goes on with the query of the link.
For sort keys that count in whole numbers this ends, whatever the bounds in the
query, and the pages together are the rows that the first query admits: none is
lost and none repeated.  Only a page that ends in a number of too many digits may
have no link, because its new bound cannot be written.
-/

namespace LedgerQuery.Paging

open Link (Tokens keys compact)

/-! ## Exhausted scans -/

/-- The first row that may stand behind a row. -/
def firstPast (order : Order) (last : Int) : Int :=
  match order with
  | .asc => last + 1
  | .desc => last + -1

theorem closedBound_boundOperator (order : Order) (last : Int) :
    closedBound (boundOperator order false) (.int last) = .ok (.int (firstPast order last)) := by
  cases order <;> rfl

/-- Reading a text as a whole number yields that number or a value that cannot be compared. -/
theorem integerCodec_text (s : String) :
    (∃ n, Numeral.integer? s = some n ∧ integerCodec (.text s) = .ok (.int n)) ∨
      ∃ fault, isUncomparable fault = true ∧ integerCodec (.text s) = .error fault := by
  have read : integerCodec (.text s) = ((Numeral.integer s).mapError .unreadable).map .int := rfl
  rw [read]
  cases found : Numeral.integer s with
  | ok n => exact Or.inl ⟨n, Numeral.integer?_of_integer found, rfl⟩
  | error cause => exact Or.inr ⟨.unreadable cause, rfl, rfl⟩

theorem noLater_of_past {order : Order} {last row : Int} (past : Past order last row) :
    NoLater order (firstPast order last) row := by
  cases order with
  | asc => exact past
  | desc => exact Int.le_sub_one_of_lt past

/-- What the comparison with some tokens may come to: it goes wrong in one way only, and it finds
nothing left only where nothing is. -/
inductive IsVerdict (order : Order) (last : Int) (tokens : List String) :
    Except Fault Bool → Prop where
  | more : IsVerdict order last tokens (.ok false)
  | nothing {token : String} (member : token ∈ tokens) (blocks : Blocks order last token) :
    IsVerdict order last tokens (.ok true)
  | unknown {fault : Fault} (uncomparable : isUncomparable fault = true) :
    IsVerdict order last tokens (.error fault)

theorem IsVerdict.cons
    {order : Order} {last : Int} {tokens : List String} {outcome : Except Fault Bool}
    (verdict : IsVerdict order last tokens outcome) (token : String) :
    IsVerdict order last (token :: tokens) outcome := by
  cases verdict with
  | more => exact .more
  | nothing member blocks => exact .nothing (List.mem_cons_of_mem token member) blocks
  | unknown uncomparable => exact .unknown uncomparable

theorem exhaustedBy_cons_of_error
    {codec : Encoder} {token : String} {fault : Fault}
    (failed : codec (.text (Token.parse token).value) = .error fault)
    (order : Order) (boundary : Value) (tokens : List String) :
    exhaustedBy order codec boundary (token :: tokens) = .error fault := by
  rw [exhaustedBy, failed]
  rfl

theorem isVerdict_exhaustedBy (order : Order) (last : Int) (tokens : List String) :
    IsVerdict order last tokens
      (exhaustedBy order integerCodec (.int (firstPast order last)) tokens) := by
  induction tokens with
  | nil => exact .more
  | cons token tokens ih =>
    rcases integerCodec_text (Token.parse token).value with
      ⟨n, spelled, read⟩ | ⟨fault, uncomparable, failed⟩
    · have isFirst : (Value.int (firstPast order last)).integer = .ok (firstPast order last) := rfl
      rcases exhaustedBy_cons_of_reads ⟨_, read, rfl⟩ isFirst tokens with
        ⟨-, same⟩ | ⟨leftOut, stopped⟩
      · rw [same]
        exact ih.cons token
      · rw [stopped]
        apply IsVerdict.nothing List.mem_cons_self
        intro row past
        rw [tokenAdmits, spelled]
        apply decide_eq_false
        intro holds
        exact leftOut ((endAdmits_of_holds holds).earlier (noLater_of_past past))
    · rw [exhaustedBy_cons_of_error failed]
      exact .unknown uncomparable

/-- The keys whose values are whole numbers. -/
def counters : List Parameter :=
  [.blockNumber, .nodeId, .serialNumber]

theorem codecFor?_word (parameter : Parameter) :
    codecFor? [] parameter.word = codecOf? parameter := by
  show (Parameter.ofWord? parameter.word).bind codecOf? = _
  rw [Parameter.ofWord?_word]
  rfl

theorem codecFor?_of_mem_counters
    {parameter : Parameter} (counter : parameter ∈ counters) :
    codecFor? [] parameter.word = some integerCodec := by
  rw [codecFor?_word]
  simp only [counters, List.mem_cons, List.not_mem_nil, or_false] at counter
  rcases counter with rfl | rfl | rfl <;> rfl

/-- The check of a counter never fails, and it stops the scan only where a token kept blocks it. -/
theorem result_checkKey
    {parameter : Parameter} (counter : parameter ∈ counters)
    (order : Order) (tokens : Tokens) (last : Int) :
    ∃ ended, (checkKey order [] tokens parameter.word ⟨.int last, false⟩).result = .ok ended ∧
      (ended = true →
        ∃ token ∈ keptTokens order (tokensOf tokens parameter.word), Blocks order last token) := by
  have boundary : exhausted order integerCodec (boundOperator order false) (.int last)
        (keptTokens order (tokensOf tokens parameter.word)) =
      exhaustedBy order integerCodec (.int (firstPast order last))
        (keptTokens order (tokensOf tokens parameter.word)) := by
    have converted : integerCodec (.int last) = .ok (.int last) := rfl
    rw [exhausted, converted, ok_bind, closedBound_boundOperator, ok_bind]
  have verdict := isVerdict_exhaustedBy order last
    (keptTokens order (tokensOf tokens parameter.word))
  rw [checkKey, codecFor?_of_mem_counters counter, checkExhausted]
  dsimp only
  rw [boundary]
  generalize exhaustedBy order integerCodec _ _ = outcome at verdict ⊢
  cases verdict with
  | more => exact ⟨false, rfl, fun impossible => absurd impossible Bool.false_ne_true⟩
  | nothing member blocks => exact ⟨true, rfl, fun _ => ⟨_, member, blocks⟩⟩
  | unknown uncomparable =>
    dsimp only
    rw [if_pos uncomparable]
    exact ⟨false, rfl, fun impossible => absurd impossible Bool.false_ne_true⟩

/-! ## The next query -/

section Turn

variable {parameter : Parameter} {query : Query} {tokens : Tokens}

/-- The query past the last row of a page, with the new bound of a counter. -/
def nextTokens (order : Order) (tokens : Tokens) (parameter : Parameter) (last : Int) : Tokens :=
  rebound order tokens parameter.word ⟨.int last, false⟩

theorem nodup_keys_nextTokens
    (distinct : (keys tokens).Nodup) (order : Order) (parameter : Parameter) (last : Int) :
    (keys (nextTokens order tokens parameter last)).Nodup :=
  nodup_keys_rebound distinct order parameter.word ⟨.int last, false⟩

theorem tokensOf_nextTokens
    (distinct : (keys tokens).Nodup) (order : Order) (parameter : Parameter) (last : Int) :
    tokensOf (nextTokens order tokens parameter last) parameter.word =
      keptTokens order (tokensOf tokens parameter.word) ++
        [boundText (boundOperator order false) (.int last)] :=
  tokensOf_rebound distinct order parameter.word ⟨.int last, false⟩

/-- A step past a free counter either stops where a token kept blocks the scan or rebounds it, for
which the last row has to be written. -/
theorem result_advance_counter
    (counter : parameter ∈ counters)
    (free : (tokensOf tokens parameter.word).any isFixed = false)
    (order : Order) (last : Int) :
    ((advance order [] tokens [(parameter.word, .int last)]).result = .ok none ∧
        ∃ token ∈ keptTokens order (tokensOf tokens parameter.word), Blocks order last token) ∨
      (advance order [] tokens [(parameter.word, .int last)]).result =
        (Value.int last).ifWritable (some (nextTokens order tokens parameter last)) := by
  have mark : LastValue.ofValue (.int last) = .ok ⟨.int last, false⟩ := rfl
  rcases result_checkKey counter order tokens last with ⟨ended, checked, blocked⟩
  rw [advance_cons, advanceKey_of_free mark free, Traced.result_bind, Traced.result_bind, checked,
    ok_bind]
  cases ended with
  | true => exact Or.inl ⟨rfl, blocked rfl⟩
  | false =>
    right
    exact Value.ifWritable_bind_of_eq_ok rfl

/-- The links end where a token kept blocks the scan, there is none past a number of too many
digits, or the link asks for the rows past the last one. -/
theorem nextLink_counter
    (counter : parameter ∈ counters)
    (distinct : (keys tokens).Nodup)
    (read : query.texts = .ok tokens)
    (free : (tokensOf tokens parameter.word).any isFixed = false)
    (order : Order) (last : Int) :
    ((nextLink (.text order.word) query [(parameter.word, .int last)] []).result = .ok none ∧
        ∃ token ∈ keptTokens order (tokensOf tokens parameter.word), Blocks order last token) ∨
      ((nextLink (.text order.word) query [(parameter.word, .int last)] []).result =
          .error (.unreadable .writeLimit) ∧
        ¬(Value.int last).IsShowable) ∨
      ∃ link,
        (nextLink (.text order.word) query [(parameter.word, .int last)] []).result =
            .ok (some link) ∧
          (queryOfLink link).texts = .ok (compact (nextTokens order tokens parameter last)) := by
  have directed : Order.ofValue (.text order.word) = .ok order := by
    cases order <;> rfl
  rcases result_advance_counter counter free order last with ⟨stops, blocked⟩ | goesOn
  · exact Or.inl ⟨result_nextLink directed read stops, blocked⟩
  by_cases showable : (Value.int last).IsShowable
  case neg =>
    rw [Value.ifWritable_of_not_isShowable showable] at goesOn
    exact Or.inr (Or.inl ⟨result_nextLink_of_error directed read goesOn, showable⟩)
  case pos =>
    rw [Value.ifWritable_of_isShowable showable] at goesOn
    have nextDistinct := nodup_keys_nextTokens distinct order parameter last
    have someTokens : tokensOf (nextTokens order tokens parameter last) parameter.word ≠ [] := by
      rw [tokensOf_nextTokens distinct]
      exact List.append_ne_nil_of_right_ne_nil _ (List.cons_ne_nil _ _)
    rcases exists_linkOf someTokens with ⟨link, written⟩
    refine Or.inr (Or.inr ⟨link, ?_, texts_queryOfLink nextDistinct written⟩)
    rw [result_nextLink directed read goesOn]
    exact congrArg Except.ok written

end Turn

/-! ## All pages -/

/-- The rows on a page: the first ones of the scan that the query's tokens of a key admit. -/
def page (order : Order) (rows : Finset Int) (size : Nat) (key : String) (query : Query) :
    Except Fault (List Int) := do
  let tokens ← query.texts
  return (remaining order rows (tokensOf tokens key)).take size

/-- The query of the page behind a page: none behind an empty one, and none without a link. -/
def following (order : Order) (key : String) (query : Query) (fetched : List Int) :
    Except Fault (Option Query) :=
  match fetched.getLast? with
  | none => .ok none
  | some last =>
    (nextLink (.text order.word) query [(key, .int last)] []).result.map (Option.map queryOfLink)

/-- The pages from the first one on; none where they do not end within a number of turns. -/
def fetch (order : Order) (rows : Finset Int) (size : Nat) (key : String) :
    (turns : Nat) → Query → Except Fault (Option (List (List Int)))
  | 0, _ => .ok none
  | turns + 1, query => do
    let fetched ← page order rows size key query
    match ← following order key query fetched with
    | none => return some [fetched]
    | some next => return (← fetch order rows size key turns next).map (fetched :: ·)

section Fetch

variable {parameter : Parameter} {order : Order} {rows : Finset Int} {size : Nat} {query : Query}
  {tokens : Tokens}

theorem page_of_texts
    (read : query.texts = .ok tokens) (order : Order) (rows : Finset Int) (size : Nat)
    (key : String) :
    page order rows size key query =
      .ok ((remaining order rows (tokensOf tokens key)).take size) := by
  rw [page, read]
  rfl

theorem following_of_last
    {fetched : List Int} {last : Int} (isLast : fetched.getLast? = some last)
    (order : Order) (key : String) (query : Query) :
    following order key query fetched =
      (nextLink (.text order.word) query [(key, .int last)] []).result.map
        (Option.map queryOfLink) := by
  rw [following, isLast]

theorem fetch_of_last_page
    {key : String} {fetched : List Int}
    (paged : page order rows size key query = .ok fetched)
    (stops : following order key query fetched = .ok none) (turns : Nat) :
    fetch order rows size key (turns + 1) query = .ok (some [fetched]) := by
  rw [fetch, paged, ok_bind, stops]
  rfl

theorem fetch_of_following_error
    {key : String} {fetched : List Int} {fault : Fault}
    (paged : page order rows size key query = .ok fetched)
    (failed : following order key query fetched = .error fault) (turns : Nat) :
    fetch order rows size key (turns + 1) query = .error fault := by
  rw [fetch, paged, ok_bind, failed]
  rfl

theorem fetch_of_page
    {key : String} {fetched : List Int} {next : Query} {turns : Nat} {pages : List (List Int)}
    (paged : page order rows size key query = .ok fetched)
    (goesOn : following order key query fetched = .ok (some next))
    (others : fetch order rows size key turns next = .ok (some pages)) :
    fetch order rows size key (turns + 1) query = .ok (some (fetched :: pages)) := by
  rw [fetch, paged, ok_bind, goesOn, ok_bind]
  dsimp only
  rw [others]
  rfl

theorem fetch_of_page_error
    {key : String} {fetched : List Int} {next : Query} {turns : Nat} {fault : Fault}
    (paged : page order rows size key query = .ok fetched)
    (goesOn : following order key query fetched = .ok (some next))
    (failed : fetch order rows size key turns next = .error fault) :
    fetch order rows size key (turns + 1) query = .error fault := by
  rw [fetch, paged, ok_bind, goesOn, ok_bind]
  dsimp only
  rw [failed]
  rfl

/-- Some page of the rows ends in a number of too many digits. -/
def EndsOverlong (size : Nat) (rows : List Int) : Prop :=
  ∃ turn last, ((rows.drop (turn * size)).take size).getLast? = some last ∧
    ¬(Value.int last).IsShowable

theorem EndsOverlong.exists_mem
    {size : Nat} {rows : List Int} (ends : EndsOverlong size rows) :
    ∃ row ∈ rows, ¬(Value.int row).IsShowable := by
  rcases ends with ⟨turn, last, isLast, overlong⟩
  have onPage := List.mem_of_getLast? isLast
  exact ⟨last, List.drop_subset _ _ (List.take_subset _ _ onPage), overlong⟩

/-- The pages behind the first are pages, too. -/
theorem EndsOverlong.of_drop
    {size : Nat} {rows : List Int} (ends : EndsOverlong size (rows.drop size)) :
    EndsOverlong size rows := by
  rcases ends with ⟨turn, last, isLast, overlong⟩
  refine ⟨turn + 1, last, ?_, overlong⟩
  rw [Nat.succ_mul, Nat.add_comm, ← List.drop_drop]
  exact isLast

/-- Behind a page that is not empty there is nothing left, its last row cannot be written, or there
is a query of the same kind that leaves what is not on the page. -/
theorem following_cases
    (counter : parameter ∈ counters)
    (distinct : (query.map Prod.fst).Nodup)
    (read : query.texts = .ok tokens)
    (free : (tokensOf tokens parameter.word).any isFixed = false)
    {last : Int}
    (isLast : ((remaining order rows (tokensOf tokens parameter.word)).take size).getLast? =
      some last) :
    let left := remaining order rows (tokensOf tokens parameter.word)
    (following order parameter.word query (left.take size) = .ok none ∧ left.drop size = []) ∨
      (following order parameter.word query (left.take size) = .error (.unreadable .writeLimit) ∧
        ¬(Value.int last).IsShowable) ∨
      ∃ next later, following order parameter.word query (left.take size) = .ok (some next) ∧
        (next.map Prod.fst).Nodup ∧ next.texts = .ok later ∧
        (tokensOf later parameter.word).any isFixed = false ∧
        remaining order rows (tokensOf later parameter.word) = left.drop size := by
  intro left
  have tokensDistinct := Query.nodup_keys_of_texts distinct read
  have followed := following_of_last isLast order parameter.word query
  rcases nextLink_counter counter tokensDistinct read free order last with
    ⟨stops, token, member, blocks⟩ | ⟨failed, overlong⟩ | ⟨link, linked, reread⟩
  · rw [stops] at followed
    exact Or.inl ⟨followed, drop_remaining_eq_nil isLast member blocks⟩
  · rw [failed] at followed
    exact Or.inr (Or.inl ⟨followed, overlong⟩)
  · rw [linked] at followed
    have nextDistinct := nodup_keys_nextTokens tokensDistinct order parameter last
    have nextKeyTokens := tokensOf_nextTokens tokensDistinct order parameter last
    rw [← tokensOf_compact nextDistinct] at nextKeyTokens
    refine Or.inr (Or.inr ⟨queryOfLink link, _, followed, ?_, reread, ?_, ?_⟩)
    · rw [← Query.keys_of_texts reread]
      exact nextDistinct.sublist (Link.keys_filter_sublist _ _)
    · rw [nextKeyTokens, List.any_append, not_any_isFixed_keptTokens free order, List.any_cons,
        isFixed_boundText, List.any_nil]
      rfl
    · rw [nextKeyTokens]
      exact remaining_rebound isLast

/-- Each turn takes the rows of its page off those that are left, so enough turns take them all,
unless the last row of a page cannot be written. -/
theorem fetch_cases
    (counter : parameter ∈ counters) (positive : 0 < size)
    (distinct : (query.map Prod.fst).Nodup)
    (read : query.texts = .ok tokens)
    (free : (tokensOf tokens parameter.word).any isFixed = false)
    {turns : Nat}
    (enough : (remaining order rows (tokensOf tokens parameter.word)).length < turns) :
    (∃ pages, fetch order rows size parameter.word turns query = .ok (some pages) ∧
        pages.flatten = remaining order rows (tokensOf tokens parameter.word)) ∨
      (fetch order rows size parameter.word turns query = .error (.unreadable .writeLimit) ∧
        EndsOverlong size (remaining order rows (tokensOf tokens parameter.word))) := by
  induction turns generalizing query tokens with
  | zero => cases enough
  | succ turns ih =>
    have paged := page_of_texts read order rows size parameter.word
    cases isLast : ((remaining order rows (tokensOf tokens parameter.word)).take size).getLast? with
    | none =>
      have nothing := List.getLast?_eq_none_iff.mp isLast
      rw [nothing] at paged
      refine Or.inl ⟨[[]], fetch_of_last_page paged rfl turns, ?_⟩
      rcases List.take_eq_nil_iff.mp nothing with zero | empty
      · exact absurd zero (Nat.ne_of_gt positive)
      · exact empty.symm
    | some last =>
      rcases following_cases counter distinct read free isLast with
        ⟨stops, nothing⟩ | ⟨failed, overlong⟩ |
          ⟨next, later, goesOn, nextDistinct, reread, laterFree, cut⟩
      · refine Or.inl ⟨[_], fetch_of_last_page paged stops turns, ?_⟩
        rw [List.flatten_singleton, List.take_of_length_le (List.drop_eq_nil_iff.mp nothing)]
      · refine Or.inr ⟨fetch_of_following_error paged failed turns, 0, last, ?_, overlong⟩
        rw [Nat.zero_mul, List.drop_zero]
        exact isLast
      · have fewer :
            (remaining order rows (tokensOf later parameter.word)).length < turns := by
          have nonempty := List.length_pos_of_mem
            (List.take_subset size _ (List.mem_of_getLast? isLast))
          rw [cut, List.length_drop]
          omega
        rcases ih nextDistinct reread laterFree fewer with ⟨pages, others, flat⟩ | ⟨failed, ends⟩
        · refine Or.inl ⟨_ :: pages, fetch_of_page paged goesOn others, ?_⟩
          rw [List.flatten_cons, flat, cut, List.take_append_drop]
        · rw [cut] at ends
          exact Or.inr ⟨fetch_of_page_error paged goesOn failed, ends.of_drop⟩

/--
Fetching ends, and its pages are the rows that the first query admits in the
order of the scan; it fails only where the last row of a page has too many
digits to be written.  The query may have any bounds and exclusions of the
counter, with numbers of any length, and anything of other keys; it has no
equality of the counter, which would keep every page from moving on.
-/
theorem fetch_all
    (counter : parameter ∈ counters) (positive : 0 < size)
    (distinct : (query.map Prod.fst).Nodup)
    (read : query.texts = .ok tokens)
    (free : ∀ token ∈ tokensOf tokens parameter.word, (Token.parse token).operator ≠ .eq)
    {turns : Nat} (enough : rows.card < turns) :
    (∃ pages, fetch order rows size parameter.word turns query = .ok (some pages) ∧
        pages.flatten = (scan order rows).filter (admits (tokensOf tokens parameter.word))) ∨
      (fetch order rows size parameter.word turns query = .error (.unreadable .writeLimit) ∧
        EndsOverlong size
          ((scan order rows).filter (admits (tokensOf tokens parameter.word)))) := by
  have noneFixed : (tokensOf tokens parameter.word).any isFixed = false := by
    rw [List.any_eq_false]
    intro token member
    simpa [isFixed] using free token member
  exact fetch_cases counter positive distinct read noneFixed
    (Nat.lt_of_le_of_lt (length_remaining_le order rows _) enough)

/-- Two blocks a page, from the second on and without the fourth. -/
theorem fetch_all_blocks :
    let query : Query := [("block.number", .list [.text "gte:2", .text "ne:4"])]
    let rows : Finset Int := {1, 2, 3, 4, 5, 6}
    ∃ pages, fetch .asc rows 2 "block.number" 7 query = .ok (some pages) ∧
      pages.flatten = (scan .asc rows).filter (admits ["gte:2", "ne:4"]) := by
  intro query rows
  have counter : Parameter.blockNumber ∈ counters := by decide
  have read : query.texts = .ok [("block.number", ["gte:2", "ne:4"])] := rfl
  rcases @fetch_all .blockNumber .asc rows 2 query _ counter (by decide) (by decide) read
      (by decide) 7 (by decide) with fetched | ⟨-, ends⟩
  · exact fetched
  · rcases ends.exists_mem with ⟨row, member, overlong⟩
    have small : ∀ row ∈ rows, row.natAbs < Nat.pow 10 1 := by decide
    have isRow : row ∈ rows := (Finset.mem_sort _).mp (List.mem_filter.mp member).1
    exact absurd (Value.isShowable_int_of_lt 1 (by decide) (small row isRow)) overlong

/-- No link leads past a page that ends in a number of too many digits. -/
theorem fetch_of_overlong
    {row : Int} (overlong : ¬(Value.int row).IsShowable) (turns : Nat) :
    fetch .asc {row} 1 "block.number" (turns + 1) [] = .error (.unreadable .writeLimit) := by
  have read : Query.texts [] = .ok [] := rfl
  have onPage : (remaining .asc {row} []).take 1 = [row] := by
    rw [remaining, scan, Finset.sort_singleton]
    rfl
  have paged := page_of_texts read .asc {row} 1 "block.number"
  rw [tokensOf_of_notMem List.not_mem_nil, onPage] at paged
  have counter : Parameter.blockNumber ∈ counters := by decide
  have directed : Order.ofValue (.text "asc") = .ok .asc := rfl
  apply fetch_of_following_error paged
  rcases @result_advance_counter .blockNumber [] counter rfl .asc row with
    ⟨-, token, impossible, -⟩ | failed
  · cases impossible
  · rw [Value.ifWritable_of_not_isShowable overlong] at failed
    rw [following_of_last rfl]
    exact congrArg (Except.map (Option.map queryOfLink))
      (result_nextLink_of_error directed read failed)

/-- The least number of too many digits is the only row. -/
theorem fetch_all_refuted :
    let rows : Finset Int := {10 ^ digitLimit}
    ∃ turns, rows.card < turns ∧
      ¬∃ pages, fetch .asc rows 1 "block.number" turns [] = .ok (some pages) := by
  intro rows
  refine ⟨2, by simp [rows], ?_⟩
  rintro ⟨pages, fetched⟩
  rw [fetch_of_overlong Value.not_isShowable_pow] at fetched
  cases fetched

end Fetch

end LedgerQuery.Paging
