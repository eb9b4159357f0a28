import LedgerQuery.Proofs.Paging.Accepted
import LedgerQuery.Proofs.Paging.Bound
import LedgerQuery.Proofs.Paging.Steps

/-!
# The end of paging

There is no next page when a sort key has nothing left: no whole number lies behind the last row of
the page and within the bounds at the end.  Where the sort keys can be compared the engine finds
this out exactly.  A step past one key stops for this key alone, as the tokens of the others do not
change, so that all steps together stop when one of the keys has nothing left.  A key of which
something is left gets a new bound, for which its last value has to be written.
-/

namespace LedgerQuery.Paging

open Link (Tokens keys)

/-! ## One sort key -/

/-- A codec reads the last value of a sort key and all tokens that stay beside the new bound. -/
structure IsComparable
    (order : Order) (codec : Encoder) (tokens : List String) (mark : LastValue) : Prop where
  last : ∃ n, Reads codec mark.value n
  kept : ∀ token ∈ keptTokens order tokens, ∃ n, Reads codec (.text (Token.parse token).value) n

/-- No row stands behind the last one and within the bounds at the end. -/
def NothingLeft
    (order : Order) (codec : Encoder) (tokens : List String) (mark : LastValue) : Prop :=
  ¬∃ last row, Reads codec mark.value last ∧ Behind order mark.inclusive last row ∧
    AdmitAtEnd order codec tokens row

section Key

variable {order : Order} {codec : Encoder} {mark : LastValue}

theorem isEndBound_of_isScanBound
    {operator : Operator} (scanBound : isScanBound order operator = true) :
    isEndBound order operator = false := by
  cases order <;> cases operator <;> first | rfl | cases scanBound

/-- Bounds in the direction of the scan leave out no row at the end. -/
theorem admitAtEnd_keptTokens {tokens : List String} {row : Int} :
    AdmitAtEnd order codec (keptTokens order tokens) row ↔ AdmitAtEnd order codec tokens row := by
  constructor
  · intro admitted token member n reads
    cases dropped : isScanBound order (Token.parse token).operator with
    | true => exact endAdmits_of_not_isEndBound (isEndBound_of_isScanBound dropped)
    | false => exact admitted token (List.mem_filter.mpr ⟨member, by simp [dropped]⟩) n reads
  · intro admitted token member
    exact admitted token (List.mem_filter.mp member).1

/-- The first row that may come is the one that decides. -/
theorem nothingLeft_iff
    {last : Int} (reads : Reads codec mark.value last) {tokens : List String} :
    NothingLeft order codec tokens mark ↔
      ¬AdmitAtEnd order codec tokens (firstBehind order mark.inclusive last) := by
  rw [NothingLeft, not_iff_not]
  constructor
  · rintro ⟨last', row, readsToo, behind, admitted⟩ token member n number
    rw [reads.unique readsToo]
    exact (admitted token member n number).earlier (behind_iff.mp behind)
  · intro admitted
    exact ⟨last, _, reads, behind_iff.mpr (NoLater.refl order _), admitted⟩

/-- The check of a comparable key finds out whether something is left. -/
theorem exists_checkKey
    {codecs : List (String × Encoder)} {key : String} (found : codecFor? codecs key = some codec)
    {tokens : Tokens} (comparable : IsComparable order codec (tokensOf tokens key) mark) :
    ∃ ended, (checkKey order codecs tokens key mark).result = .ok ended ∧
      (ended = true ↔ NothingLeft order codec (tokensOf tokens key) mark) := by
  rcases comparable.last with ⟨last, reads⟩
  rcases reads with ⟨v, converted, isNumber⟩
  rcases exists_closedBound isNumber (boundOperator order mark.inclusive) with
    ⟨boundary, closed, isFirst⟩
  rcases exists_exhaustedBy comparable.kept isFirst with ⟨ended, compared, decides⟩
  have answer : exhausted order codec (boundOperator order mark.inclusive) mark.value
      (keptTokens order (tokensOf tokens key)) = .ok ended := by
    rw [exhausted, converted, ok_bind, closed, ok_bind, compared]
  refine ⟨ended, ?_, ?_⟩
  · rw [checkKey, found, checkExhausted, answer]
    rfl
  · rw [decides, admitAtEnd_keptTokens, nothingLeft_iff ⟨v, converted, isNumber⟩, firstBehind]

end Key

/-! ## All sort keys -/

/-- Where no equality fixes a sort key, its last value can be compared with its tokens. -/
def CanCompare
    (order : Order) (codecs : List (String × Encoder)) (tokens : Tokens)
    (entry : String × Value) : Prop :=
  ∃ mark, LastValue.ofValue entry.2 = .ok mark ∧
    ((tokensOf tokens entry.1).any isFixed = false →
      ∃ codec, codecFor? codecs entry.1 = some codec ∧
        IsComparable order codec (tokensOf tokens entry.1) mark)

/-- No equality fixes a sort key, and nothing of it is left. -/
def Ends
    (order : Order) (codecs : List (String × Encoder)) (tokens : Tokens)
    (entry : String × Value) : Prop :=
  (tokensOf tokens entry.1).any isFixed = false ∧
    ∃ mark codec, LastValue.ofValue entry.2 = .ok mark ∧
      codecFor? codecs entry.1 = some codec ∧
      NothingLeft order codec (tokensOf tokens entry.1) mark

section Steps

variable {order : Order} {codecs : List (String × Encoder)} {tokens : Tokens}

/-- A step past a comparable key ends the scan where nothing of the key is left. -/
theorem stepsTo_outcome
    {entry : String × Value} (comparable : CanCompare order codecs tokens entry) :
    StepsTo (Ends order codecs tokens entry) (IsOverlongLast tokens entry)
      (outcome order codecs tokens entry) := by
  rcases entry with ⟨key, last⟩
  rcases comparable with ⟨mark, read, compares⟩
  cases fixed : (tokensOf tokens key).any isFixed with
  | true => exact stepsTo_of_fixed read fixed fun ends => ends.1
  | false =>
    rcases compares fixed with ⟨codec, found, isComparable⟩
    rcases exists_checkKey found isComparable with ⟨ended, checked, decides⟩
    apply stepsTo_of_checked read fixed checked
    rw [decides]
    constructor
    · intro nothing
      exact ⟨fixed, mark, codec, read, found, nothing⟩
    · rintro ⟨-, mark', codec', read', found', nothing⟩
      cases read.symm.trans read'
      cases found.symm.trans found'
      exact nothing

/-- Steps that go on past some keys lead to tokens with a link. -/
theorem linkOf_advance_eq_none_iff
    (distinct : (keys tokens).Nodup) {last : Query} {final : Tokens}
    (advanced : (advance order codecs tokens last).result = .ok (some final)) :
    linkOf final = none ↔ last = [] ∧ ∀ entry ∈ tokens, entry.2 = [] := by
  cases last with
  | nil =>
    cases advanced
    rw [linkOf_eq_none_iff, and_iff_right rfl]
  | cons entry rest =>
    have someTokens : tokensOf final entry.1 ≠ [] := by
      have moved := moved_of_advance distinct advanced entry.1
      generalize tokensOf final entry.1 = after at moved ⊢
      cases moved with
      | kept untouched =>
        rcases untouched with absent | fixed
        · exact absurd List.mem_cons_self absent
        · rintro empty
          rw [empty] at fixed
          cases fixed
      | bounded _ _ _ _ => exact List.append_ne_nil_of_right_ne_nil _ (List.cons_ne_nil _ _)
    rcases exists_linkOf someTokens with ⟨link, written⟩
    rw [written]
    apply iff_of_false (Option.some_ne_none link)
    rintro ⟨impossible, -⟩
    cases impossible

end Steps

/-- The steps come to a sort key of which something is left and whose last value has too many
digits, past keys of which something is left. -/
def Breaks
    (order : Order) (codecs : List (String × Encoder)) (tokens : Tokens) (last : Query) : Prop :=
  Reaches (fun entry => ¬Ends order codecs tokens entry)
    (fun entry => IsOverlongLast tokens entry ∧ ¬Ends order codecs tokens entry) last

/--
Paging ends exactly where nothing is left.  If the sort keys that no equality fixes can be compared
with their tokens, there is an answer, and there is no link just in two cases: there is neither a
sort key nor a token, or no row of one of these keys stands behind the last one and within the
bounds at the end.  The exception is a new bound that cannot be written before the scan ends.
-/
theorem nextLink_eq_none_iff
    {order : Value} {direction : Order} (directed : Order.ofValue order = .ok direction)
    {query last : Query} (distinct : (query.map Prod.fst).Nodup)
    (distinctLast : (last.map Prod.fst).Nodup)
    {tokens : Tokens} (read : query.texts = .ok tokens)
    {codecs : List (String × Encoder)}
    (comparable : ∀ entry ∈ last, CanCompare direction codecs tokens entry) :
    (Breaks direction codecs tokens last ∧
        (nextLink order query last codecs).result = .error (.unreadable .writeLimit)) ∨
      (¬Breaks direction codecs tokens last ∧
        ∃ link, (nextLink order query last codecs).result = .ok link ∧
          (link = none ↔
            (last = [] ∧ ∀ entry ∈ tokens, entry.2 = []) ∨
              ∃ entry ∈ last, Ends direction codecs tokens entry)) := by
  have tokensDistinct := Query.nodup_keys_of_texts distinct read
  have steps : ∀ entry ∈ last, StepsTo (Ends direction codecs tokens entry)
      (IsOverlongLast tokens entry) (outcome direction codecs tokens entry) :=
    fun entry member => stepsTo_outcome (comparable entry member)
  have breaks := fun fault =>
    @advance_eq_error_iff_overlong _ _ _ _ _ tokensDistinct distinctLast steps fault
  have stops := advance_eq_none_iff_ends tokensDistinct distinctLast steps
  cases advanced : (advance direction codecs tokens last).result with
  | error fault =>
    rcases (breaks fault).mp advanced with ⟨rfl, broken⟩
    exact Or.inl ⟨broken, result_nextLink_of_error directed read advanced⟩
  | ok next =>
    have unbroken : ¬Breaks direction codecs tokens last := by
      intro broken
      cases advanced.symm.trans ((breaks _).mpr ⟨rfl, broken⟩)
    refine Or.inr ⟨unbroken, next.bind linkOf, result_nextLink directed read advanced, ?_⟩
    have ended : next = none ↔ ∃ entry ∈ last, Ends direction codecs tokens entry := by
      rw [← Except.ok.injEq, ← advanced, stops]
      constructor
      · rintro ⟨before, entry, after, rfl, ends, -⟩
        exact ⟨entry, by simp, ends⟩
      · intro found
        exact reaches_of_exists found unbroken
    rw [← ended]
    cases next with
    | none => exact iff_of_true rfl (Or.inr rfl)
    | some final =>
      rw [Option.bind_some, linkOf_advance_eq_none_iff tokensDistinct advanced]
      exact (or_iff_left (Option.some_ne_none final)).symm

/-- Blocks from the second on are listed downwards and the page ends with the second; the node is
fixed. -/
theorem nextLink_eq_none_second_block :
    let query : Query :=
      [("block.number", .list [.text "gte:2", .text "ne:4"]), ("node.id", .text "3")]
    let last : Query := [("node.id", .int 3), ("block.number", .cursor (.int 2) false false)]
    let tokens : Tokens := [("block.number", ["gte:2", "ne:4"]), ("node.id", ["3"])]
    Order.ofValue (.text "desc") = .ok .desc ∧ query.texts = .ok tokens ∧
      (∀ entry ∈ last, CanCompare .desc [] tokens entry) ∧
      (∃ entry ∈ last, Ends .desc [] tokens entry) ∧
      (nextLink (.text "desc") query last []).result = .ok none := by
  intro query last tokens
  have directed : Order.ofValue (.text "desc") = .ok .desc := rfl
  have read : query.texts = .ok tokens := rfl
  have found : codecFor? [] "block.number" = some integerCodec := rfl
  have readsLast : Reads integerCodec (.int 2) 2 := ⟨_, rfl, rfl⟩
  have readsFrom : Reads integerCodec (.text (Token.parse "gte:2").value) 2 := ⟨_, rfl, rfl⟩
  have readsOther : Reads integerCodec (.text (Token.parse "ne:4").value) 4 := ⟨_, rfl, rfl⟩
  have comparable : ∀ entry ∈ last, CanCompare .desc [] tokens entry := by
    rw [List.forall_mem_cons, List.forall_mem_singleton]
    constructor
    · refine ⟨⟨.int 3, false⟩, rfl, ?_⟩
      intro free
      cases free
    · refine ⟨⟨.int 2, false⟩, rfl, fun _ => ⟨integerCodec, found, ⟨2, readsLast⟩, ?_⟩⟩
      show ∀ token ∈ ["gte:2", "ne:4"], _
      rw [List.forall_mem_cons, List.forall_mem_singleton]
      exact ⟨⟨2, readsFrom⟩, 4, readsOther⟩
  have ends : ∃ entry ∈ last, Ends .desc [] tokens entry := by
    refine ⟨_, List.mem_cons_of_mem _ List.mem_cons_self, rfl, ⟨.int 2, false⟩, integerCodec, rfl,
      found, ?_⟩
    rintro ⟨previous, row, reads, behind, admitted⟩
    have below : row < previous := behind
    have above : 2 ≤ row := admitted "gte:2" List.mem_cons_self 2 readsFrom
    rw [reads.unique readsLast] at below
    omega
  refine ⟨directed, read, comparable, ends, ?_⟩
  rcases nextLink_eq_none_iff directed (by decide) (by decide) read comparable with
    ⟨⟨before, entry, after, split, ⟨⟨free, mark, isMark, overlong⟩, -⟩, -⟩, -⟩ |
      ⟨-, link, linked, decides⟩
  · -- Both last values are numbers of a single digit.
    have member : entry ∈ last := by
      rw [split]
      simp
    rw [List.mem_pair] at member
    rcases member with rfl | rfl
    · cases free
    · cases isMark
      exact absurd (Value.isShowable_int_of_lt 1 (by decide) (by decide)) overlong
  · rw [decides.mpr (Or.inr ends)] at linked
    exact linked

section Overlong

variable {block : Int}

theorem canCompare_block_and_node :
    ∀ entry ∈ [("block.number", Value.int block), ("node.id", .int 10)],
      CanCompare .asc [] [("node.id", ["lt:3"])] entry := by
  rw [List.forall_mem_cons, List.forall_mem_singleton]
  constructor
  · refine ⟨⟨.int block, false⟩, rfl, fun _ => ⟨integerCodec, rfl, ⟨block, _, rfl, rfl⟩, ?_⟩⟩
    exact List.forall_mem_nil _
  · refine ⟨⟨.int 10, false⟩, rfl, fun _ => ⟨integerCodec, rfl, ⟨10, _, rfl, rfl⟩, ?_⟩⟩
    show ∀ token ∈ ["lt:3"], _
    exact List.forall_mem_singleton.mpr ⟨3, _, rfl, rfl⟩

theorem ends_node : Ends .asc [] [("node.id", ["lt:3"])] ("node.id", .int 10) := by
  refine ⟨rfl, ⟨.int 10, false⟩, integerCodec, rfl, rfl, ?_⟩
  rintro ⟨last, row, ⟨w, converted, isLast⟩, behind, admitted⟩
  cases converted
  cases isLast
  have above : (10 : Int) < row := behind
  have below : row < 3 := admitted "lt:3" List.mem_cons_self 3 ⟨_, rfl, rfl⟩
  omega

/-- A key that nothing bounds always has something left. -/
theorem not_ends_block : ¬Ends .asc [] [("node.id", ["lt:3"])] ("block.number", .int block) := by
  rintro ⟨-, mark, codec, isMark, found, nothing⟩
  cases isMark
  cases found
  refine nothing ⟨block, block + 1, ⟨_, rfl, rfl⟩, Int.lt_succ block, ?_⟩
  exact List.forall_mem_nil _

/-- The new bound of the block is written before the end of the nodes is found. -/
theorem result_nextLink_of_overlong_block (overlong : ¬(Value.int block).IsShowable) :
    (nextLink (.text "asc") [("node.id", .text "lt:3")]
        [("block.number", .int block), ("node.id", .int 10)] []).result =
      .error (.unreadable .writeLimit) := by
  have directed : Order.ofValue (.text "asc") = .ok .asc := rfl
  have read : Query.texts [("node.id", .text "lt:3")] = .ok [("node.id", ["lt:3"])] := rfl
  have distinctTokens : (keys [("node.id", ["lt:3"])]).Nodup := by decide
  have distinctLast :
      ([("block.number", Value.int block), ("node.id", .int 10)].map Prod.fst).Nodup := by
    show ["block.number", "node.id"].Nodup
    decide
  apply result_nextLink_of_error directed read
  apply (advance_eq_error_iff_overlong distinctTokens distinctLast fun entry member =>
    stepsTo_outcome (canCompare_block_and_node entry member)).mpr
  refine ⟨rfl, [], _, _, rfl, ⟨?_, not_ends_block⟩, List.forall_mem_nil _⟩
  exact ⟨rfl, ⟨.int block, false⟩, rfl, overlong⟩

end Overlong

/-- The page is past the nodes below the third, but the number of its block has too many digits. -/
theorem nextLink_eq_none_refuted :
    let last : Query := [("block.number", .int (10 ^ digitLimit)), ("node.id", .int 10)]
    (∀ entry ∈ last, CanCompare .asc [] [("node.id", ["lt:3"])] entry) ∧
      (∃ entry ∈ last, Ends .asc [] [("node.id", ["lt:3"])] entry) ∧
      (nextLink (.text "asc") [("node.id", .text "lt:3")] last []).result ≠ .ok none := by
  intro last
  refine ⟨canCompare_block_and_node, ⟨_, List.mem_cons_of_mem _ List.mem_cons_self, ends_node⟩, ?_⟩
  rw [result_nextLink_of_overlong_block Value.not_isShowable_pow]
  nofun

end LedgerQuery.Paging
