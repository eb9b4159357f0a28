import LedgerQuery.Proofs.Paging.Verdict

/-!
# Tokens in another order

The tokens of a parameter may be repeated in any order, and each of them says the
same wherever it stands.  The comparison of a sort key goes through them from the
first to the last and gives up at one that it cannot read, so that an order may
hide a bound that leaves nothing to fetch.

The main statement says exactly when this matters for a link: when one token kept
leaves out the rows to come, another one cannot be read, and no other sort key
stops the scan.  What counts are the keys that the scan comes to before a last
value that cannot be written.
-/

namespace LedgerQuery.Paging

open Link (Tokens keys)

/-! ## Torn comparisons -/

/-- Of the tokens kept one leaves out the first row to come, and one cannot be read. -/
def IsTorn (order : Order) (codec : Encoder) (tokens : List String) (mark : LastValue) : Prop :=
  ∃ last, Reads codec mark.value last ∧
    (∃ token ∈ keptTokens order tokens,
      LeavesOut order codec (firstBehind order mark.inclusive last) token) ∧
    ∃ token ∈ keptTokens order tokens, ¬IsReadable codec token

section Comparison

variable {order : Order} {codec : Encoder} {mark : LastValue} {tokens other : List String}

theorem mem_keptTokens_of_perm (permuted : other.Perm tokens) {token : String} :
    token ∈ keptTokens order other ↔ token ∈ keptTokens order tokens :=
  (permuted.filter _).mem_iff

theorem keptTokens_cons_of_mem
    {token : String} (kept : token ∈ keptTokens order tokens) (rest : List String) :
    keptTokens order (token :: rest) = token :: keptTokens order rest :=
  List.filter_cons_of_pos (List.mem_filter.mp kept).2

theorem isTorn_of_perm (permuted : other.Perm tokens) (torn : IsTorn order codec other mark) :
    IsTorn order codec tokens mark := by
  rcases torn with ⟨last, reads, ⟨first, firstKept, leftOut⟩, second, secondKept, unreadable⟩
  exact ⟨last, reads, ⟨first, (mem_keptTokens_of_perm permuted).mp firstKept, leftOut⟩,
    second, (mem_keptTokens_of_perm permuted).mp secondKept, unreadable⟩

/-- A comparison that is not torn ends wherever a token kept leaves out the first row. -/
theorem closes_iff_exists (whole : ¬IsTorn order codec tokens mark) :
    Closes order codec tokens mark ↔
      ∃ last, Reads codec mark.value last ∧ ∃ token ∈ keptTokens order tokens,
        LeavesOut order codec (firstBehind order mark.inclusive last) token := by
  apply exists_congr
  intro last
  apply and_congr_right
  intro reads
  apply reaches_iff_exists
  intro leftOut token kept
  by_contra unreadable
  exact whole ⟨last, reads, leftOut, token, kept, unreadable⟩

theorem closes_of_perm
    (whole : ¬IsTorn order codec tokens mark) (permuted : other.Perm tokens) :
    Closes order codec other mark ↔ Closes order codec tokens mark := by
  have wholeToo : ¬IsTorn order codec other mark := fun torn => whole (isTorn_of_perm permuted torn)
  rw [closes_iff_exists whole, closes_iff_exists wholeToo]
  simp only [mem_keptTokens_of_perm permuted]

/-- A torn comparison ends or goes on as its tokens are ordered. -/
theorem exists_perm_of_isTorn (torn : IsTorn order codec tokens mark) :
    (∃ other, other.Perm tokens ∧ Closes order codec other mark) ∧
      ∃ other, other.Perm tokens ∧ ¬Closes order codec other mark := by
  rcases torn with ⟨last, reads, ⟨first, firstKept, leftOut⟩, second, secondKept, unreadable⟩
  have moved {token : String} (kept : token ∈ keptTokens order tokens) :
      (token :: tokens.erase token).Perm tokens :=
    (List.perm_cons_erase (List.mem_filter.mp kept).1).symm
  constructor
  · refine ⟨_, moved firstKept, last, reads, ?_⟩
    rw [keptTokens_cons_of_mem firstKept, reaches_cons_iff]
    exact Or.inl leftOut
  · refine ⟨_, moved secondKept, ?_⟩
    rintro ⟨last', -, reached⟩
    rw [keptTokens_cons_of_mem secondKept, reaches_cons_iff] at reached
    rcases reached with ⟨n, readsToken, -⟩ | ⟨readable, -⟩
    · exact unreadable ⟨n, readsToken⟩
    · exact unreadable readable

end Comparison

/-! ## Sort keys -/

/-- The comparison of a sort key that no equality fixes is torn. -/
def TearsAt (order : Order) (tokens : Tokens) (entry : String × Value) : Prop :=
  (tokensOf tokens entry.1).any isFixed = false ∧
    ∃ mark codec, LastValue.ofValue entry.2 = .ok mark ∧ codecFor? [] entry.1 = some codec ∧
      IsTorn order codec (tokensOf tokens entry.1) mark

section Key

variable {order : Order} {before after : Tokens} {key : String} {values other : List String}
  {value : Value}

theorem stopsAt_split_iff (absent : key ∉ keys before) :
    StopsAt order (before ++ (key, values) :: after) (key, value) ↔
      values.any isFixed = false ∧
        ∃ mark codec, LastValue.ofValue value = .ok mark ∧ codecFor? [] key = some codec ∧
          Closes order codec values mark := by
  rw [StopsAt, tokensOf_split absent]

theorem tearsAt_split_iff (absent : key ∉ keys before) :
    TearsAt order (before ++ (key, values) :: after) (key, value) ↔
      values.any isFixed = false ∧
        ∃ mark codec, LastValue.ofValue value = .ok mark ∧ codecFor? [] key = some codec ∧
          IsTorn order codec values mark := by
  rw [TearsAt, tokensOf_split absent]

/-- The tokens of a key are all that counts for it. -/
theorem stopsAt_split_of_ne {entry : String × Value} (different : key ≠ entry.1) :
    StopsAt order (before ++ (key, other) :: after) entry ↔
      StopsAt order (before ++ (key, values) :: after) entry := by
  apply stopsAt_congr
  rw [tokensOf_append_cons_of_ne different, tokensOf_append_cons_of_ne different]

theorem isOverlongLast_of_perm
    (absent : key ∉ keys before) (permuted : other.Perm values) (entry : String × Value) :
    IsOverlongLast (before ++ (key, other) :: after) entry ↔
      IsOverlongLast (before ++ (key, values) :: after) entry := by
  rw [IsOverlongLast, IsOverlongLast]
  by_cases isKey : key = entry.1
  · rw [← isKey, tokensOf_split absent, tokensOf_split absent, permuted.any_eq]
  · rw [tokensOf_append_cons_of_ne isKey, tokensOf_append_cons_of_ne isKey]

theorem stopsAt_of_perm
    (absent : key ∉ keys before)
    (whole : ¬TearsAt order (before ++ (key, values) :: after) (key, value))
    (permuted : other.Perm values) :
    StopsAt order (before ++ (key, other) :: after) (key, value) ↔
      StopsAt order (before ++ (key, values) :: after) (key, value) := by
  rw [tearsAt_split_iff absent] at whole
  rw [stopsAt_split_iff absent, stopsAt_split_iff absent, permuted.any_eq]
  apply and_congr_right
  intro free
  apply exists_congr
  intro mark
  apply exists_congr
  intro codec
  apply and_congr_right
  intro read
  apply and_congr_right
  intro found
  exact closes_of_perm (fun torn => whole ⟨free, mark, codec, read, found, torn⟩) permuted

theorem exists_perm_of_tearsAt
    (absent : key ∉ keys before)
    (tears : TearsAt order (before ++ (key, values) :: after) (key, value)) :
    (∃ other, other.Perm values ∧
        StopsAt order (before ++ (key, other) :: after) (key, value)) ∧
      ∃ other, other.Perm values ∧
        ¬StopsAt order (before ++ (key, other) :: after) (key, value) := by
  rcases (tearsAt_split_iff absent).mp tears with ⟨free, mark, codec, read, found, torn⟩
  rcases exists_perm_of_isTorn torn with ⟨⟨first, firstPerm, closes⟩, second, secondPerm, goesOn⟩
  constructor
  · refine ⟨first, firstPerm, (stopsAt_split_iff absent).mpr ⟨?_, mark, codec, read, found, closes⟩⟩
    rw [firstPerm.any_eq]
    exact free
  · refine ⟨second, secondPerm, ?_⟩
    rw [stopsAt_split_iff absent]
    rintro ⟨-, mark', codec', read', found', closes⟩
    cases read.symm.trans read'
    cases found.symm.trans found'
    exact goesOn closes

end Key

/-- The scan comes to a sort key with a property in front of every last value that cannot be
written. -/
def Meets (tokens : Tokens) (last : Query) (holds : String × Value → Prop) : Prop :=
  Reaches (fun entry => ¬IsOverlongLast tokens entry) holds last

section Query

variable {order : Order} {before after : Tokens} {key : String} {values other : List String}
  {last : Query}

theorem meets_of_perm
    (absent : key ∉ keys before) (permuted : other.Perm values) (holds : String × Value → Prop) :
    Meets (before ++ (key, other) :: after) last holds ↔
      Meets (before ++ (key, values) :: after) last holds :=
  reaches_congr (fun entry _ => not_congr (isOverlongLast_of_perm absent permuted entry))
    fun _ _ => Iff.rfl

/-- Where no comparison that the scan comes to is torn, or another key stops the scan, the order of
the tokens does not matter. -/
theorem meets_stopsAt_of_perm
    (absent : key ∉ keys before) (permuted : other.Perm values)
    (settled :
      Meets (before ++ (key, values) :: after) last (fun entry =>
          entry.1 = key ∧ TearsAt order (before ++ (key, values) :: after) entry) →
        Meets (before ++ (key, values) :: after) last fun entry =>
          entry.1 ≠ key ∧ StopsAt order (before ++ (key, values) :: after) entry) :
    Meets (before ++ (key, other) :: after) last
        (StopsAt order (before ++ (key, other) :: after)) ↔
      Meets (before ++ (key, values) :: after) last
        (StopsAt order (before ++ (key, values) :: after)) := by
  rw [meets_of_perm absent permuted]
  by_cases tears : Meets (before ++ (key, values) :: after) last fun entry =>
      entry.1 = key ∧ TearsAt order (before ++ (key, values) :: after) entry
  · have stops := settled tears
    exact iff_of_true
      (stops.imp fun entry both => (stopsAt_split_of_ne (Ne.symm both.1)).mpr both.2)
      (stops.imp fun entry both => both.2)
  · apply reaches_congr_of_not_reaches tears
    rintro ⟨name, value⟩ - whole
    by_cases isKey : key = name
    · subst isKey
      exact stopsAt_of_perm absent (fun tearsHere => whole ⟨rfl, tearsHere⟩) permuted
    · exact stopsAt_split_of_ne isKey

end Query

/-! ## Links -/

/-- The last value of a sort key is a text or a whole number, plain or with its marks. -/
def IsScalarLast (last : Value) : Prop :=
  ∃ mark, LastValue.ofValue last = .ok mark ∧ mark.value.isScalar = true

theorem IsScalarLast.isPlainLast {last : Value} (scalar : IsScalarLast last) :
    IsPlainLast last := by
  rcases scalar with ⟨mark, read, isScalar⟩
  exact ⟨mark, read, Or.inr isScalar⟩

theorem IsScalarLast.not_lacksNumber
    {entry : String × Value} (scalar : IsScalarLast entry.2) (tokens : Tokens) :
    ¬LacksNumber tokens entry := by
  rintro ⟨-, -, mark, read, nothing⟩
  rcases scalar with ⟨mark', read', isScalar⟩
  cases read.symm.trans read'
  rw [nothing] at isScalar
  cases isScalar

/-- With last values for all sort keys there is no link just where the scan stops at one of them or
there is nothing to link to. -/
theorem nextLink_none_iff_stops
    {order : Value} {direction : Order} (directed : Order.ofValue order = .ok direction)
    {query last : Query} {tokens : Tokens}
    (distinct : (keys tokens).Nodup) (read : query.texts = .ok tokens)
    (distinctLast : (last.map Prod.fst).Nodup) (scalar : ∀ entry ∈ last, IsScalarLast entry.2) :
    (nextLink order query last []).result = .ok none ↔
      (last = [] ∧ ∀ entry ∈ tokens, entry.2 = []) ∨
        Meets tokens last (StopsAt direction tokens) := by
  have steps : ∀ entry ∈ last, StepsTo (StopsAt direction tokens entry)
      (IsOverlongLast tokens entry) (outcome direction [] tokens entry) := by
    intro entry member
    have isScalar := scalar entry member
    exact stepsTo_of_plain isScalar.isPlainLast (isScalar.not_lacksNumber tokens)
  rw [Meets, ← advance_eq_none_iff_ends distinct distinctLast steps]
  cases advanced : (advance direction [] tokens last).result with
  | error fault =>
    rw [result_nextLink_of_error directed read advanced]
    apply iff_of_false nofun
    rintro (⟨rfl, -⟩ | impossible)
    · cases advanced
    · cases impossible
  | ok next =>
    rw [result_nextLink directed read advanced]
    cases next with
    | none => exact iff_of_true rfl (Or.inr rfl)
    | some final =>
      rw [Option.bind_some, Except.ok.injEq, linkOf_advance_eq_none_iff distinct advanced]
      exact (or_iff_left nofun).symm

section Permuted

variable {order : Value} {direction : Order} {before after : Tokens} {key : String}
  {values : List String} {last : Query}

theorem nodup_keys_of_other
    (distinct : (keys (before ++ (key, values) :: after)).Nodup) (other : List String) :
    (keys (before ++ (key, other) :: after)).Nodup := by
  rw [Link.keys_append, Link.keys_cons] at distinct ⊢
  exact distinct

theorem forall_empty_of_perm {other : List String} (perm : other.Perm values) :
    (∀ entry ∈ before ++ (key, other) :: after, entry.2 = []) ↔
      ∀ entry ∈ before ++ (key, values) :: after, entry.2 = [] := by
  have empty : other = [] ↔ values = [] := by
    rw [← List.length_eq_zero_iff, perm.length_eq, List.length_eq_zero_iff]
  rw [List.forall_mem_append, List.forall_mem_append, List.forall_mem_cons, List.forall_mem_cons,
    empty]

/--
The order in which the tokens of a key are repeated makes no difference to
whether there is a next page, whatever the tokens are, just where the comparison
of the key is whole or not come to, or the scan stops at another key anyway.
-/
theorem nextLink_none_perm_iff
    (directed : Order.ofValue order = .ok direction)
    (distinct : (keys (before ++ (key, values) :: after)).Nodup)
    {query : Query} (read : query.texts = .ok (before ++ (key, values) :: after))
    (distinctLast : (last.map Prod.fst).Nodup) (scalar : ∀ entry ∈ last, IsScalarLast entry.2) :
    (∀ (other : List String) (permuted : Query), other.Perm values →
        permuted.texts = .ok (before ++ (key, other) :: after) →
          ((nextLink order permuted last []).result = .ok none ↔
            (nextLink order query last []).result = .ok none)) ↔
      (Meets (before ++ (key, values) :: after) last (fun entry =>
          entry.1 = key ∧ TearsAt direction (before ++ (key, values) :: after) entry) →
        Meets (before ++ (key, values) :: after) last fun entry =>
          entry.1 ≠ key ∧ StopsAt direction (before ++ (key, values) :: after) entry) := by
  have absent : key ∉ keys before := by
    intro member
    rw [Link.keys_append, List.nodup_append] at distinct
    exact distinct.2.2 key member key List.mem_cons_self rfl
  have noneIff (other : List String) {permuted : Query}
      (readOther : permuted.texts = .ok (before ++ (key, other) :: after)) :=
    nextLink_none_iff_stops directed (nodup_keys_of_other distinct other) readOther distinctLast
      scalar
  constructor
  · rintro same ⟨front, ⟨name, value⟩, rest, split, ⟨isName, tears⟩, passed⟩
    have isKey : key = name := isName.symm
    subst isKey
    have member : (key, value) ∈ last := by simp [split]
    have meets {holds : String × Value → Prop} (holdsHere : holds (key, value)) :
        Meets (before ++ (key, values) :: after) last holds :=
      ⟨front, _, rest, split, holdsHere, passed⟩
    by_contra alone
    rcases exists_perm_of_tearsAt absent tears with
      ⟨⟨first, firstPerm, stops⟩, second, secondPerm, goesOn⟩
    have firstNone := (noneIff first (Query.texts_ofTexts _)).mpr
      (Or.inr ((meets_of_perm absent firstPerm _).mpr (meets stops)))
    have queryNone := (same first _ firstPerm (Query.texts_ofTexts _)).mp firstNone
    have secondNone := (same second _ secondPerm (Query.texts_ofTexts _)).mpr queryNone
    rcases (noneIff second (Query.texts_ofTexts _)).mp secondNone with
      ⟨empty, -⟩ | meetsToo
    · rw [empty] at member
      cases member
    · rw [meets_of_perm absent secondPerm] at meetsToo
      rcases meetsToo with ⟨front, entry, rest, split, stopsToo, passed⟩
      have inside : entry ∈ last := by simp [split]
      by_cases isKey : entry.1 = key
      · rw [List.inj_on_of_nodup_map distinctLast inside member isKey] at stopsToo
        exact goesOn stopsToo
      · exact alone ⟨front, entry, rest, split,
          ⟨isKey, (stopsAt_split_of_ne (Ne.symm isKey)).mp stopsToo⟩, passed⟩
  · intro settled other permuted perm readOther
    rw [noneIff other readOther, noneIff values read, forall_empty_of_perm perm,
      meets_stopsAt_of_perm absent perm settled]

end Permuted

/-- An exclusion that is no number does not matter as long as the bound above leaves blocks. -/
theorem nextLink_none_perm_blocks :
    let query : Query := .ofTexts [("block.number", ["lt:9", "ne:x"]), ("limit", ["2"])]
    let last : Query := [("block.number", .int 5)]
    query.texts = .ok ([] ++ ("block.number", ["lt:9", "ne:x"]) :: [("limit", ["2"])]) ∧
      (∀ entry ∈ last, IsScalarLast entry.2) ∧
      ∀ (other : List String) (permuted : Query), other.Perm ["lt:9", "ne:x"] →
        permuted.texts = .ok ([] ++ ("block.number", other) :: [("limit", ["2"])]) →
          ((nextLink (.text "asc") permuted last []).result = .ok none ↔
            (nextLink (.text "asc") query last []).result = .ok none) := by
  intro query last
  have directed : Order.ofValue (.text "asc") = .ok .asc := rfl
  have read : query.texts = .ok ([] ++ ("block.number", ["lt:9", "ne:x"]) :: [("limit", ["2"])]) :=
    rfl
  have scalar : ∀ entry ∈ last, IsScalarLast entry.2 := by
    intro entry member
    rw [List.mem_singleton.mp member]
    exact ⟨⟨.int 5, false⟩, rfl, rfl⟩
  refine ⟨read, scalar, ?_⟩
  apply (nextLink_none_perm_iff directed (by decide) read (by decide) scalar).mpr
  rintro ⟨front, entry, rest, split, ⟨-, tears⟩, -⟩
  have member : entry ∈ last := by simp [split]
  rw [List.mem_singleton.mp member] at tears
  rcases (tearsAt_split_iff (by decide)).mp tears with
    ⟨-, mark, codec, isMark, found, last, ⟨w, converted, isLast⟩, ⟨token, kept, n, reads, leftOut⟩,
      -⟩
  cases isMark
  cases found
  cases converted
  cases isLast
  have isToken : token ∈ ["lt:9", "ne:x"] := (List.mem_filter.mp kept).1
  rw [List.mem_pair] at isToken
  rcases isToken with rfl | rfl
  · have above : Reads integerCodec (.text (Token.parse "lt:9").value) 9 := ⟨_, rfl, rfl⟩
    rw [reads.unique above] at leftOut
    exact absurd (show (6 : Int) < 9 by decide) leftOut
  · rcases reads with ⟨w, impossible, -⟩
    cases impossible

/-- The same bound and the same exclusion in both orders: no block comes behind the tenth, but only
one of the orders shows it. -/
theorem nextLink_none_perm_refuted :
    let last : Query := [("block.number", .int 10)]
    ["ne:x", "lt:5"].Perm ["lt:5", "ne:x"] ∧
      (nextLink (.text "asc") (.ofTexts [("block.number", ["lt:5", "ne:x"])]) last []).result =
        .ok none ∧
      (nextLink (.text "asc") (.ofTexts [("block.number", ["ne:x", "lt:5"])]) last []).result =
        .ok (some "?block.number=ne:x&block.number=lt:5&block.number=gt:10") :=
  ⟨.swap _ _ _, by decide +kernel, by decide +kernel⟩

end LedgerQuery.Paging
