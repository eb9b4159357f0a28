import LedgerQuery.Proofs.Paging.Memoryless

/-!
# What a link holds

The next link asks for the tokens of the query that the scan does not run past,
each key with them followed by the one new bound of its last value.  Keys that
hold an old token stay where the query has them; the others come behind them, in
the order of the last values.  A key fixed by an equality and a key without a
last value are as the query has them.

The main statement says so for the pairs that are read from the link.  It comes
from an induction on the last values: putting the bound of one of them to the old
tokens is what the step past its key does.
-/

namespace LedgerQuery.Paging

open Link (Tokens keys compact)

/-! ## The tokens of the next link -/

/-- The last values of the sort keys, read with their marks. -/
def marksOf (last : Query) : Except Fault (List (String × LastValue)) :=
  last.mapM fun entry => (LastValue.ofValue entry.2).map (entry.1, ·)

/-- The new bound of a last value. -/
def newBound (order : Order) (mark : LastValue) : String :=
  boundText (boundOperator order mark.inclusive) mark.value

/-- Old tokens of a key, with the new bound behind them; a fixed key and a key without a last value
have none. -/
def withBound
    (order : Order) (marks : List (String × LastValue)) (entry : String × List String) :
    String × List String :=
  match marks.lookup entry.1 with
  | none => entry
  | some mark =>
    if entry.2.any isFixed then entry else (entry.1, entry.2 ++ [newBound order mark])

/-- The new bounds of the keys that hold no old token. -/
def newEntries
    (order : Order) (marks : List (String × LastValue)) (holders : List String) : Tokens :=
  (marks.filter fun entry => entry.1 ∉ holders).map fun entry =>
    (entry.1, [newBound order entry.2])

/-- Old tokens with the new bounds. -/
def withBounds (order : Order) (marks : List (String × LastValue)) (old : Tokens) : Tokens :=
  old.map (withBound order marks) ++ newEntries order marks (keys old)

/-- The tokens of the next link: what remains of those of the query, with the new bounds. -/
def linkTokens
    (order : Order) (marks : List (String × LastValue)) (tokens : Tokens) : Tokens :=
  withBounds order marks (residue order (marks.map Prod.fst) tokens)

/-! ## One last value more -/

section Marks

variable {order : Order} {key : String} {mark : LastValue} {marks : List (String × LastValue)}

theorem marksOf_cons_eq_ok {entry : String × Value} {last : Query} :
    marksOf (entry :: last) = .ok marks ↔
      ∃ mark others, LastValue.ofValue entry.2 = .ok mark ∧ marksOf last = .ok others ∧
        marks = (entry.1, mark) :: others := by
  rw [marksOf, mapM_cons_eq_ok]
  constructor
  · rintro ⟨first, others, firstRead, othersRead, rfl⟩
    rcases map_eq_ok.mp firstRead with ⟨mark, read, rfl⟩
    exact ⟨mark, others, read, othersRead, rfl⟩
  · rintro ⟨mark, others, read, othersRead, rfl⟩
    exact ⟨_, others, map_eq_ok.mpr ⟨mark, read, rfl⟩, othersRead, rfl⟩

/-- Reading the last values keeps their keys. -/
theorem keys_of_marksOf
    {last : Query} (read : marksOf last = .ok marks) :
    marks.map Prod.fst = last.map Prod.fst := by
  induction last generalizing marks with
  | nil =>
    cases read
    rfl
  | cons entry last ih =>
    rcases marksOf_cons_eq_ok.mp read with ⟨mark, others, -, othersRead, rfl⟩
    rw [List.map_cons, List.map_cons, ih othersRead]

theorem withBound_of_notMem
    (absent : key ∉ marks.map Prod.fst) (values : List String) :
    withBound order marks (key, values) = (key, values) := by
  have none : marks.lookup key = none := by
    rw [List.lookup_eq_none_iff]
    intro entry member
    rw [bne_iff_ne]
    rintro rfl
    exact absent (List.mem_map_of_mem member)
  rw [withBound, none]

theorem withBound_of_fixed {values : List String} (fixed : values.any isFixed = true) :
    withBound order marks (key, values) = (key, values) := by
  rw [withBound]
  split
  · rfl
  · exact if_pos fixed

theorem withBound_cons_self {values : List String} (free : values.any isFixed = false) :
    withBound order ((key, mark) :: marks) (key, values) =
      (key, values ++ [newBound order mark]) := by
  rw [withBound, List.lookup_cons_self]
  exact if_neg (by simp [free])

/-- A last value is of no account to the tokens of other keys. -/
theorem map_withBound_cons {tokens : Tokens} (absent : key ∉ keys tokens) :
    tokens.map (withBound order ((key, mark) :: marks)) = tokens.map (withBound order marks) := by
  apply List.map_congr_left
  intro entry member
  have different : entry.1 ≠ key := by
    rintro rfl
    exact absent (List.mem_map_of_mem member)
  rw [withBound, withBound, List.lookup_cons, beq_false_of_ne different]

theorem newEntries_cons_of_mem {holders : List String} (member : key ∈ holders) :
    newEntries order ((key, mark) :: marks) holders = newEntries order marks holders := by
  rw [newEntries, List.filter_cons_of_neg (by simp [member])]
  rfl

theorem newEntries_cons_of_notMem {holders : List String} (absent : key ∉ holders) :
    newEntries order ((key, mark) :: marks) holders =
      (key, [newBound order mark]) :: newEntries order marks holders := by
  rw [newEntries, List.filter_cons_of_pos (by simp [absent])]
  rfl

/-- It does not matter whether a key without a last value holds old tokens. -/
theorem newEntries_append
    (fresh : key ∉ marks.map Prod.fst) (holders : List String) :
    newEntries order marks (holders ++ [key]) = newEntries order marks holders := by
  rw [newEntries, newEntries]
  congr 1
  apply List.filter_congr
  intro entry member
  have different : entry.1 ≠ key := by
    rintro rfl
    exact fresh (List.mem_map_of_mem member)
  simp [different]

end Marks

/-! ## The steps -/

section Steps

variable {order : Order} {key : String} {mark : LastValue} {marks : List (String × LastValue)}

/-- The last value of a fixed key is of no account. -/
theorem withBounds_cons_of_fixed
    {old : Tokens} (distinct : (keys old).Nodup)
    (fixed : (tokensOf old key).any isFixed = true) :
    withBounds order ((key, mark) :: marks) old = withBounds order marks old := by
  have holds : key ∈ keys old := by
    apply mem_keys_of_tokensOf_ne_nil
    intro none
    rw [none] at fixed
    cases fixed
  rw [withBounds, withBounds, newEntries_cons_of_mem holds]
  congr 1
  rcases exists_split_of_mem_keys distinct holds with
    ⟨before, values, after, rfl, absentBefore, absentAfter⟩
  rw [tokensOf_split absentBefore] at fixed
  rw [List.map_append, List.map_append, List.map_cons, List.map_cons,
    map_withBound_cons absentBefore, map_withBound_cons absentAfter, withBound_of_fixed fixed,
    withBound_of_fixed fixed]

/-- The last value of a free key is what the step past the key puts behind its tokens. -/
theorem withBounds_cons_of_free
    {old : Tokens} (distinct : (keys old).Nodup) (filled : ∀ entry ∈ old, entry.2 ≠ [])
    (fresh : key ∉ marks.map Prod.fst)
    (free : (tokensOf old key).any isFixed = false)
    (stays : keptTokens order (tokensOf old key) = tokensOf old key) :
    withBounds order ((key, mark) :: marks) old =
      withBounds order marks (rebound order old key mark) := by
  rcases rebound_cases distinct order key mark with
    ⟨absent, same⟩ | ⟨before, values, after, rfl, absentBefore, absentAfter, cases⟩
  · rw [same, withBounds, withBounds, map_withBound_cons absent, newEntries_cons_of_notMem absent,
      List.map_append, List.map_singleton, withBound_of_notMem fresh, Link.keys_append,
      Link.keys_cons, Link.keys_nil, newEntries_append fresh, List.append_assoc,
      List.singleton_append]
    rfl
  · rw [tokensOf_split absentBefore] at free stays
    rcases cases with ⟨none, -⟩ | ⟨-, same⟩
    · rw [stays] at none
      exact absurd none (filled (key, values) (by simp))
    · have holds : key ∈ keys (before ++ (key, values) :: after) := by simp
      rw [same, stays, withBounds, withBounds, newEntries_cons_of_mem holds, List.map_append,
        List.map_append, List.map_cons, List.map_cons, map_withBound_cons absentBefore,
        map_withBound_cons absentAfter, withBound_cons_self free, withBound_of_notMem fresh,
        Link.keys_append, Link.keys_append, Link.keys_cons, Link.keys_cons]
      rfl

variable {tokens : Tokens}

theorem nodup_keys_residue
    (order : Order) (distinct : (keys tokens).Nodup) (swept : List String) :
    (keys (residue order swept tokens)).Nodup :=
  distinct.sublist (keys_residue_sublist order tokens)

theorem ne_nil_of_mem_residue
    {swept : List String} {entry : String × List String}
    (member : entry ∈ residue order swept tokens) :
    entry.2 ≠ [] := by
  have filled := (List.mem_filter.mp member).2
  simpa using filled

/-- What a step leaves behind has the link of the steps to come. -/
theorem linkTokens_of_advanceKey
    {codecs : List (String × Encoder)} {last : Value}
    (distinct : (keys tokens).Nodup) (fresh : key ∉ marks.map Prod.fst)
    (read : LastValue.ofValue last = .ok mark)
    {next : Tokens}
    (advanced : (advanceKey order codecs tokens key last).result = .ok (some next)) :
    linkTokens order marks next = linkTokens order ((key, mark) :: marks) tokens := by
  have distinctOld := nodup_keys_residue order distinct (key :: marks.map Prod.fst)
  rw [linkTokens, linkTokens, List.map_cons]
  rcases advanceKey_eq_some advanced with ⟨fixed, rfl⟩ | ⟨free, mark', read', -, -, rfl⟩
  · have same : residue order (key :: marks.map Prod.fst) next =
        residue order (marks.map Prod.fst) next := residue_of_fixed distinct fixed
    rw [same] at distinctOld ⊢
    rw [withBounds_cons_of_fixed distinctOld]
    rw [tokensOf_residue_of_fixed distinct fixed, fixed]
  · cases read.symm.trans read'
    have old : tokensOf (residue order (key :: marks.map Prod.fst) tokens) key =
        keptTokens order (tokensOf tokens key) := tokensOf_residue_of_free distinct free
    rw [← rebound_residue distinct fresh free, withBounds_cons_of_free distinctOld _ fresh]
    · rw [old]
      exact not_any_isFixed_keptTokens free order
    · rw [old, keptTokens_keptTokens]
    · intro entry member
      exact ne_nil_of_mem_residue member

theorem exists_mark_of_advanceKey
    {codecs : List (String × Encoder)} {last : Value} {next : Tokens}
    (advanced : (advanceKey order codecs tokens key last).result = .ok (some next)) :
    ∃ mark, LastValue.ofValue last = .ok mark := by
  cases read : LastValue.ofValue last with
  | ok mark => exact ⟨mark, rfl⟩
  | error fault =>
    rw [advanceKey_of_error read] at advanced
    cases advanced

theorem linkTokens_nil (order : Order) (tokens : Tokens) :
    linkTokens order [] tokens = compact tokens := by
  have same : withBound order [] = id :=
    funext fun entry => withBound_of_notMem List.not_mem_nil entry.2
  rw [linkTokens, List.map_nil, residue_no_keys, withBounds, same, List.map_id]
  exact List.append_nil _

/-- The steps past all keys lead to the tokens of the next link. -/
theorem exists_compact_of_advance
    {codecs : List (String × Encoder)} {last : Query}
    (distinct : (keys tokens).Nodup) (distinctLast : (last.map Prod.fst).Nodup)
    {next : Tokens}
    (advanced : (advance order codecs tokens last).result = .ok (some next)) :
    ∃ marks, marksOf last = .ok marks ∧ compact next = linkTokens order marks tokens := by
  induction last generalizing tokens with
  | nil =>
    cases advanced
    exact ⟨[], rfl, (linkTokens_nil order _).symm⟩
  | cons entry rest ih =>
    rcases entry with ⟨key, last⟩
    rcases advance_eq_some_cons advanced with ⟨middle, step, advanced⟩
    rw [List.map_cons, List.nodup_cons] at distinctLast
    rcases exists_mark_of_advanceKey step with ⟨mark, read⟩
    rcases ih (nodup_keys_of_advanceKey distinct step) distinctLast.2 advanced with
      ⟨marks, readOthers, same⟩
    refine ⟨(key, mark) :: marks, marksOf_cons_eq_ok.mpr ⟨mark, marks, read, readOthers, rfl⟩, ?_⟩
    have fresh : key ∉ marks.map Prod.fst := by
      rw [keys_of_marksOf readOthers]
      exact distinctLast.1
    rw [same, linkTokens_of_advanceKey distinct fresh read step]

end Steps

/-! ## The link -/

/--
The content of the next link.  The pairs read from it are those of the tokens
that the scan does not run past and of one new bound for every last value whose
key is not fixed, and the link has no others.  Gathered by key they are these
tokens: the keys that hold an old token in the order of the query, and behind
them the other keys in the order of the last values.
-/
theorem read_nextLink
    {order : Value} {query last : Query} {codecs : List (String × Encoder)} {link : String}
    (distinct : (query.map Prod.fst).Nodup) (distinctLast : (last.map Prod.fst).Nodup)
    (linked : (nextLink order query last codecs).result = .ok (some link)) :
    ∃ direction tokens marks, Order.ofValue order = .ok direction ∧ query.texts = .ok tokens ∧
      marksOf last = .ok marks ∧
      Link.readPairs link = Link.pairs (linkTokens direction marks tokens) ∧
      Link.read link = linkTokens direction marks tokens := by
  rcases exists_advance_of_nextLink linked with
    ⟨direction, tokens, next, directed, read, advanced, written⟩
  have distinctTokens := Query.nodup_keys_of_texts distinct read
  rcases exists_compact_of_advance distinctTokens distinctLast advanced with
    ⟨marks, readLast, same⟩
  refine ⟨direction, tokens, marks, directed, read, readLast, ?_, ?_⟩
  · rw [eq_write_of_linkOf written, Link.readPairs_write, ← same, Link.pairs_compact]
  · rw [read_of_linkOf (nodup_keys_of_advance distinctTokens advanced) written, same]

/-- The slot keeps no bound, the timestamp keeps the one at the end of the scan, the node is fixed,
and the other key is no sort key. -/
theorem read_nextLink_mixed :
    let query : Query :=
      [("slot", .text "gt:2"), ("timestamp", .list [.text "gte:1", .text "lt:9"]),
        ("node.id", .int 7), ("ä &", .text "%+:=")]
    let last : Query :=
      [("node.id", .int 7), ("slot", .text "5"), ("timestamp", .cursor (.text "3") true true)]
    let link := "?timestamp=lt:9&timestamp=gte:3&node.id=7&%C3%A4+%26=%25%2B:%3D&slot=gt:5"
    (nextLink (.text "asc") query last []).result = .ok (some link) ∧
      Link.read link = [("timestamp", ["lt:9", "gte:3"]), ("node.id", ["7"]), ("ä &", ["%+:="]),
        ("slot", ["gt:5"])] := by
  intro query last link
  have linked : (nextLink (.text "asc") query last []).result = .ok (some link) := by
    decide +kernel
  have texts : query.texts = .ok [("slot", ["gt:2"]), ("timestamp", ["gte:1", "lt:9"]),
      ("node.id", ["7"]), ("ä &", ["%+:="])] := by decide +kernel
  refine ⟨linked, ?_⟩
  rcases read_nextLink (by decide) (by decide) linked with
    ⟨direction, tokens, marks, directed, read, readLast, -, content⟩
  cases directed
  cases texts.symm.trans read
  cases readLast
  exact content

end LedgerQuery.Paging
