import LedgerQuery.Proofs.Paging.Advance

/-!
# Links do not remember earlier pages

The link to a page asks for the page after it with the same words as the query
that paging began with: nothing of the bounds of earlier pages is left.  What
later steps can see of the tokens is their residue, where the bounds that the
steps will drop are already dropped.  A step of the first page leaves the residue
alone, and a step of the second page finds the same in the residue as in the
tokens.
-/

namespace LedgerQuery.Paging

open Link (Tokens keys compact)

/-! ## Residues -/

/-- An entry without the bounds that will be dropped when its key is swept; a fixed key keeps
everything. -/
def residueOf (order : Order) (swept : List String) (entry : String × List String) :
    String × List String :=
  if entry.1 ∈ swept ∧ entry.2.any isFixed = false then (entry.1, keptTokens order entry.2)
  else entry

/-- What the steps past some keys can see of tokens. -/
def residue (order : Order) (swept : List String) (tokens : Tokens) : Tokens :=
  compact (tokens.map (residueOf order swept))

section Residue

variable (order : Order) {swept : List String}

theorem residue_append (first second : Tokens) :
    residue order swept (first ++ second) =
      residue order swept first ++ residue order swept second := by
  rw [residue, List.map_append, compact, List.filter_append]
  rfl

theorem residue_cons (entry : String × List String) (tokens : Tokens) :
    residue order swept (entry :: tokens) =
      residue order swept [entry] ++ residue order swept tokens :=
  residue_append order [entry] tokens

theorem residueOf_fst (entry : String × List String) :
    (residueOf order swept entry).1 = entry.1 := by
  rw [residueOf]
  split <;> rfl

theorem residueOf_of_free
    {key : String} (member : key ∈ swept)
    {values : List String} (free : values.any isFixed = false) :
    residueOf order swept (key, values) = (key, keptTokens order values) :=
  if_pos ⟨member, free⟩

theorem residueOf_of_fixed
    {values : List String} (fixed : values.any isFixed = true) (key : String) :
    residueOf order swept (key, values) = (key, values) :=
  if_neg (by simp [fixed])

theorem residueOf_of_notMem
    {key : String} (absent : key ∉ swept) (values : List String) :
    residueOf order swept (key, values) = (key, values) :=
  if_neg (by simp [absent])

theorem residue_singleton (key : String) (values : List String) :
    residue order swept [(key, values)] = compact [residueOf order swept (key, values)] :=
  rfl

theorem residue_of_free
    {key : String} (member : key ∈ swept)
    {values : List String} (free : values.any isFixed = false) :
    residue order swept [(key, values)] = compact [(key, keptTokens order values)] := by
  rw [residue_singleton, residueOf_of_free order member free]

theorem keys_residue_sublist (tokens : Tokens) :
    (keys (residue order swept tokens)).Sublist (keys tokens) := by
  have names : keys (tokens.map (residueOf order swept)) = keys tokens := by
    rw [keys, keys, List.map_map]
    exact List.map_congr_left fun entry _ => residueOf_fst order entry
  rw [← names]
  exact Link.keys_filter_sublist _ _

/-- Without keys to sweep only the empty entries are missing. -/
theorem residue_no_keys (tokens : Tokens) : residue order [] tokens = compact tokens := by
  have same : residueOf order [] = id :=
    funext fun entry => residueOf_of_notMem order List.not_mem_nil entry.2
  rw [residue, same, List.map_id]

/-- Keys that do not occur need not be swept. -/
theorem residue_of_notMem
    {key : String} {tokens : Tokens} (absent : key ∉ keys tokens) :
    residue order (key :: swept) tokens = residue order swept tokens := by
  have same : ∀ entry ∈ tokens, residueOf order (key :: swept) entry =
      residueOf order swept entry := by
    rintro entry member
    have differs : entry.1 ≠ key := by
      rintro rfl
      exact absent (List.mem_map_of_mem member)
    simp [residueOf, differs]
  rw [residue, residue, List.map_congr_left same]

/-- Empty entries leave no residue. -/
theorem residue_compact (tokens : Tokens) :
    residue order swept (compact tokens) = residue order swept tokens := by
  induction tokens with
  | nil => rfl
  | cons entry tokens ih =>
    rcases entry with ⟨key, values⟩
    cases values with
    | nil =>
      have empty : residue order swept [(key, [])] = [] := by
        by_cases member : key ∈ swept
        · rw [residue_of_free order member rfl]
          rfl
        · rw [residue_singleton, residueOf_of_notMem order member]
          rfl
      rw [Link.compact_cons_empty, residue_cons, empty, List.nil_append, ih]
    | cons value values => rw [Link.compact_cons_nonempty, residue_cons, ih, ← residue_cons]

theorem residue_bound
    {key : String} (absent : key ∉ swept) (token : String) (tokens : List String) :
    residue order swept [(key, token :: tokens)] = [(key, token :: tokens)] := by
  rw [residue_singleton, residueOf_of_notMem order absent]
  rfl

theorem notMem_keys_residue
    {key : String} {tokens : Tokens} (absent : key ∉ keys tokens) :
    key ∉ keys (residue order swept tokens) :=
  fun member => absent ((keys_residue_sublist order tokens).subset member)

end Residue

/-! ## Steps past a page leave the residue alone -/

section First

variable {order : Order} {swept : List String} {tokens : Tokens} {key : String}

theorem residue_new_bound
    (member : key ∈ swept) (order : Order) (kept : List String) (mark : LastValue)
    (free : kept.any isFixed = false) :
    residue order swept
        [(key, keptTokens order kept ++
          [boundText (boundOperator order mark.inclusive) mark.value])] =
      residue order swept [(key, kept)] := by
  have stillFree : (keptTokens order kept ++
      [boundText (boundOperator order mark.inclusive) mark.value]).any isFixed = false := by
    rw [List.any_append, not_any_isFixed_keptTokens free order, List.any_cons,
      isFixed_boundText, List.any_nil]
    rfl
  rw [residue_of_free order member stillFree, residue_of_free order member free,
    keptTokens_append_boundText, keptTokens_keptTokens]

theorem residue_rebound
    (distinct : (keys tokens).Nodup) (member : key ∈ swept)
    (free : (tokensOf tokens key).any isFixed = false) (mark : LastValue) :
    residue order swept (rebound order tokens key mark) = residue order swept tokens := by
  have noResidue : residue order swept
      [(key, [boundText (boundOperator order mark.inclusive) mark.value])] = [] := by
    have alone := residue_new_bound member order [] mark rfl
    rw [keptTokens_nil, List.nil_append] at alone
    rw [alone, residue_of_free order member rfl]
    rfl
  rcases rebound_cases distinct order key mark with
    ⟨-, same⟩ | ⟨before, values, after, rfl, absentBefore, -, cases⟩
  · rw [same, residue_append, noResidue, List.append_nil]
  · rw [tokensOf_split absentBefore] at free
    rw [residue_append, residue_cons]
    rcases cases with ⟨none, same⟩ | ⟨-, same⟩
    · have empty : residue order swept [(key, values)] = [] := by
        rw [residue_of_free order member free, none]
        rfl
      rw [same, residue_append, residue_append, noResidue, empty, List.append_nil,
        List.nil_append]
    · rw [same, residue_append, residue_cons, residue_new_bound member order values mark free]

/-- No step past a swept key changes the residue. -/
theorem residue_of_advance
    {codecs : List (String × Encoder)} {last : Query}
    (distinct : (keys tokens).Nodup) (sweeps : ∀ entry ∈ last, entry.1 ∈ swept)
    {next : Tokens}
    (advanced : (advance order codecs tokens last).result = .ok (some next)) :
    residue order swept next = residue order swept tokens := by
  induction last generalizing tokens with
  | nil =>
    cases advanced
    rfl
  | cons entry rest ih =>
    rcases entry with ⟨key, last⟩
    rcases advance_eq_some_cons advanced with ⟨middle, step, advanced⟩
    have restSweeps : ∀ entry ∈ rest, entry.1 ∈ swept := by
      intro entry member
      exact sweeps entry (List.mem_cons_of_mem _ member)
    rw [ih (nodup_keys_of_advanceKey distinct step) restSweeps advanced]
    rcases advanceKey_eq_some step with ⟨-, rfl⟩ | ⟨free, mark, -, -, -, rfl⟩
    · rfl
    · exact residue_rebound distinct (sweeps _ List.mem_cons_self) free mark

end First

/-! ## Steps past the next page see the residue only -/

section Second

variable {order : Order} {swept : List String} {tokens : Tokens} {key : String}

/-- The residue of tokens that hold a free key to be swept. -/
theorem residue_split_of_free
    {before after : Tokens} {values : List String}
    (absentBefore : key ∉ keys before) (absentAfter : key ∉ keys after)
    (free : values.any isFixed = false) :
    residue order (key :: swept) (before ++ (key, values) :: after) =
      residue order swept before ++
        (compact [(key, keptTokens order values)] ++ residue order swept after) := by
  rw [residue_append, residue_cons, residue_of_free order List.mem_cons_self free,
    residue_of_notMem order absentBefore, residue_of_notMem order absentAfter]

theorem residue_of_fixed
    (distinct : (keys tokens).Nodup)
    (fixed : (tokensOf tokens key).any isFixed = true) :
    residue order (key :: swept) tokens = residue order swept tokens := by
  by_cases member : key ∈ keys tokens
  · rcases exists_split_of_mem_keys distinct member with
      ⟨before, values, after, rfl, absentBefore, absentAfter⟩
    rw [tokensOf_split absentBefore] at fixed
    rw [residue_append, residue_append, residue_cons order (key, values) after,
      residue_cons order (key, values) after, residue_singleton, residue_singleton,
      residueOf_of_fixed order fixed, residueOf_of_fixed order fixed,
      residue_of_notMem order absentBefore, residue_of_notMem order absentAfter]
  · exact residue_of_notMem order member

theorem tokensOf_residue_of_fixed
    (distinct : (keys tokens).Nodup)
    (fixed : (tokensOf tokens key).any isFixed = true) :
    tokensOf (residue order swept tokens) key = tokensOf tokens key := by
  by_cases member : key ∈ keys tokens
  · rcases exists_split_of_mem_keys distinct member with
      ⟨before, values, after, rfl, absentBefore, -⟩
    rw [tokensOf_split absentBefore] at fixed ⊢
    cases values with
    | nil => cases fixed
    | cons value values =>
      rw [residue_append, residue_cons, residue_singleton, residueOf_of_fixed order fixed,
        Link.compact_cons_nonempty]
      exact tokensOf_split (notMem_keys_residue order absentBefore) _ _
  · rw [tokensOf_of_notMem member] at fixed
    cases fixed

theorem tokensOf_residue_of_free
    (distinct : (keys tokens).Nodup)
    (free : (tokensOf tokens key).any isFixed = false) :
    tokensOf (residue order (key :: swept) tokens) key =
      keptTokens order (tokensOf tokens key) := by
  by_cases member : key ∈ keys tokens
  · rcases exists_split_of_mem_keys distinct member with
      ⟨before, values, after, rfl, absentBefore, absentAfter⟩
    rw [tokensOf_split absentBefore] at free ⊢
    rw [residue_split_of_free absentBefore absentAfter free]
    have absent : key ∉ keys (residue order swept before) :=
      notMem_keys_residue order absentBefore
    cases keptTokens order values with
    | nil =>
      apply tokensOf_of_notMem
      simp [absent, notMem_keys_residue order absentAfter, Link.compact_cons_empty]
    | cons token kept => exact tokensOf_split absent _ _
  · rw [tokensOf_of_notMem (notMem_keys_residue order member), tokensOf_of_notMem member,
      keptTokens_nil]

theorem rebound_residue
    (distinct : (keys tokens).Nodup) (fresh : key ∉ swept)
    (free : (tokensOf tokens key).any isFixed = false) (mark : LastValue) :
    rebound order (residue order (key :: swept) tokens) key mark =
      residue order swept (rebound order tokens key mark) := by
  rcases rebound_cases distinct order key mark with
    ⟨absent, same⟩ | ⟨before, values, after, rfl, absentBefore, absentAfter, cases⟩
  · rw [same, residue_append, residue_bound order fresh, residue_of_notMem order absent,
      rebound_of_notMem (notMem_keys_residue order absent)]
  · rw [tokensOf_split absentBefore] at free
    rw [residue_split_of_free absentBefore absentAfter free]
    have noneBefore : key ∉ keys (residue order swept before) :=
      notMem_keys_residue order absentBefore
    rcases cases with ⟨none, same⟩ | ⟨someKept, same⟩
    · have noneAfter : key ∉ keys (residue order swept after) :=
        notMem_keys_residue order absentAfter
      rw [same, residue_append, residue_append, residue_bound order fresh, none,
        Link.compact_cons_empty, Link.compact_nil, List.nil_append]
      exact rebound_of_notMem (by simp [noneBefore, noneAfter]) order mark
    · rcases List.exists_cons_of_ne_nil someKept with ⟨token, kept, isKept⟩
      have again : keptTokens order (token :: kept) = token :: kept := by
        rw [← isKept, keptTokens_keptTokens]
      rw [same, residue_append, residue_cons, isKept, List.cons_append,
        residue_bound order fresh, Link.compact_cons_nonempty, Link.compact_nil,
        List.singleton_append, List.singleton_append, rebound, tokensOf_split noneBefore, again,
        addBound_split_cons noneBefore, List.cons_append]

theorem checkKey_residue
    (distinct : (keys tokens).Nodup)
    (free : (tokensOf tokens key).any isFixed = false)
    (codecs : List (String × Encoder)) (mark : LastValue) :
    checkKey order codecs (residue order (key :: swept) tokens) key mark =
      checkKey order codecs tokens key mark := by
  rw [checkKey, tokensOf_residue_of_free distinct free, keptTokens_keptTokens]
  rfl

/-- A step from the residue does what the step from the tokens does. -/
theorem advanceKey_residue
    (distinct : (keys tokens).Nodup) (fresh : key ∉ swept)
    (codecs : List (String × Encoder)) (last : Value) :
    advanceKey order codecs (residue order (key :: swept) tokens) key last =
      Option.map (residue order swept) <$> advanceKey order codecs tokens key last := by
  cases read : LastValue.ofValue last with
  | error fault =>
    rw [advanceKey_of_error read, advanceKey_of_error read]
    rfl
  | ok mark =>
    cases fixed : (tokensOf tokens key).any isFixed with
    | true =>
      have stillFixed :
          (tokensOf (residue order (key :: swept) tokens) key).any isFixed = true := by
        rw [tokensOf_residue_of_fixed distinct fixed, fixed]
      rw [advanceKey_of_fixed read stillFixed, advanceKey_of_fixed read fixed, map_pure,
        residue_of_fixed distinct fixed]
      rfl
    | false =>
      have stillFree :
          (tokensOf (residue order (key :: swept) tokens) key).any isFixed = false := by
        rw [tokensOf_residue_of_free distinct fixed]
        exact not_any_isFixed_keptTokens fixed order
      rw [advanceKey_of_free read stillFree, advanceKey_of_free read fixed,
        checkKey_residue distinct fixed, map_bind]
      apply congrArg (bind _)
      funext ended
      cases ended with
      | true => rfl
      | false =>
        show Traced.lift _ = _ <$> Traced.lift _
        rw [rebound_residue distinct fresh fixed mark, map_lift_ifWritable]
        rfl

/-- The steps from the residue do what the steps from the tokens do. -/
theorem advance_residue
    (distinct : (keys tokens).Nodup)
    {last : Query} (lastDistinct : (last.map Prod.fst).Nodup)
    (codecs : List (String × Encoder)) :
    advance order codecs (residue order (last.map Prod.fst) tokens) last =
      Option.map compact <$> advance order codecs tokens last := by
  induction last generalizing tokens with
  | nil =>
    rw [List.map_nil, residue_no_keys]
    rfl
  | cons entry rest ih =>
    rcases entry with ⟨key, last⟩
    rcases List.nodup_cons.mp lastDistinct with ⟨fresh, restDistinct⟩
    rw [advance_cons, advance_cons, List.map_cons, advanceKey_residue distinct fresh,
      bind_map_left, map_bind]
    apply Traced.bind_congr_of_ok
    intro next step
    cases next with
    | none => rfl
    | some next => exact ih (nodup_keys_of_advanceKey distinct step) restDistinct

end Second

/-! ## The links -/

theorem linkOf_compact (tokens : Tokens) : linkOf (compact tokens) = linkOf tokens := by
  rw [linkOf, Link.pairs_compact]
  rfl

/-- Tokens with the same residue lead to the same link. -/
theorem linkPast_congr
    {order : Order} {first second : Tokens} {last : Query}
    (firstDistinct : (keys first).Nodup) (secondDistinct : (keys second).Nodup)
    (lastDistinct : (last.map Prod.fst).Nodup)
    (same : residue order (last.map Prod.fst) first = residue order (last.map Prod.fst) second)
    (codecs : List (String × Encoder)) :
    linkPast order codecs first last = linkPast order codecs second last := by
  have ofResidue {tokens : Tokens} (distinct : (keys tokens).Nodup) :
      linkPast order codecs tokens last =
        linkPast order codecs (residue order (last.map Prod.fst) tokens) last := by
    rw [linkPast, linkPast, advance_residue distinct lastDistinct, ← comp_map]
    apply congrArg (· <$> advance order codecs tokens last)
    funext next
    cases next with
    | none => rfl
    | some next => exact (linkOf_compact next).symm
  rw [ofResidue firstDistinct, same, ← ofResidue secondDistinct]

/--
When the first page has a next one, its link may take the place of the query
that it was made from: with the last values of the next page, of which there is
one for every sort key of the first, both lead to the same link, with the same
reports on the way.
-/
theorem nextLink_queryOfLink
    {order : Value} {query first later : Query} {codecs : List (String × Encoder)} {link : String}
    (distinct : (query.map Prod.fst).Nodup)
    (laterDistinct : (later.map Prod.fst).Nodup)
    (continued : ∀ entry ∈ first, entry.1 ∈ later.map Prod.fst)
    (linked : (nextLink order query first codecs).result = .ok (some link)) :
    nextLink order (queryOfLink link) later codecs = nextLink order query later codecs := by
  rw [nextLink_eq, Traced.result_bind] at linked
  rcases bind_eq_ok.mp linked with ⟨direction, directed, linked⟩
  rw [Traced.result_bind] at linked
  rcases bind_eq_ok.mp linked with ⟨tokens, read, linked⟩
  rw [linkPast, map_eq_pure_bind, Traced.result_bind] at linked
  rcases bind_eq_ok.mp linked with ⟨final, advanced, linked⟩
  cases final with
  | none => cases linked
  | some final =>
    have written : linkOf final = some link := Except.ok.inj linked
    have tokensDistinct : (keys tokens).Nodup := by
      rw [Query.keys_of_texts read]
      exact distinct
    have finalDistinct := nodup_keys_of_advance tokensDistinct advanced
    have compactDistinct : (keys (compact final)).Nodup :=
      finalDistinct.sublist (Link.keys_filter_sublist _ final)
    have reread := texts_queryOfLink finalDistinct written
    have sameResidue : residue direction (later.map Prod.fst) (compact final) =
        residue direction (later.map Prod.fst) tokens := by
      rw [residue_compact]
      exact residue_of_advance tokensDistinct continued advanced
    rw [Traced.result_lift] at directed read
    rw [nextLink_eq, nextLink_eq, directed, reread, read]
    exact linkPast_congr compactDistinct tokensDistinct laterDistinct sameResidue codecs

/-- Blocks below the ninth, from the third on: the bound behind the fifth leaves no trace. -/
theorem nextLink_queryOfLink_blocks :
    let query : Query :=
      [("block.number", .list [.text "gte:3", .text "lt:9"]), ("memo", .text "a b")]
    let link := "?block.number=lt:9&block.number=gt:5&memo=a+b"
    (nextLink (.text "asc") query [("block.number", .int 5)] []).result = .ok (some link) ∧
      nextLink (.text "asc") (queryOfLink link) [("block.number", .int 7)] [] =
        nextLink (.text "asc") query [("block.number", .int 7)] [] := by
  intro query link
  have linked : (nextLink (.text "asc") query [("block.number", .int 5)] []).result =
      .ok (some link) := by decide +kernel
  exact ⟨linked, nextLink_queryOfLink (by decide) (by decide) (by simp) linked⟩

end LedgerQuery.Paging
